-- The blocks of a backup that is restored: exactly which of them are handed to
-- the commander, and encoded.
import DevconSpark.BackupLaws
import DevconSpark.Commands
import DevconSpark.PayloadLaws
import DevconSpark.RestoredLines

open binary bidict programs py_text py_dict py_number py_value devcon_spark.exceptions
open devcon_spark.models devcon_spark.codec devcon_spark.codec.lookup
open devcon_spark.codec.descriptor devcon_spark.codec.unit_conversion
open devcon_spark.codec.processor devcon_spark.codec.content devcon_spark.codec.bloxfield
open devcon_spark.codec.sequence devcon_spark.spark_api

namespace devcon_spark.codec.content

/-! ## Entries that are handed back -/

/-- Both passes in which what was read is handed back. -/
def Passage.encoder (s : Passage) (env : Packages) (cv : UnitConverter) (pool : Pool)
    (writer : BlockStore) : Encoder where
  env
  cv
  pool
  filter_values := s.filter_write
  block_store := writer

section
variable {pool : Pool} {env : Packages} {user_temp : Text} {s : Passage} {names : Naming}
variable (hpool : Schema pool) {message : Text} {raw shown named : Dict}
  (hcontent : contentItems pool rawLeaf message raw)
  (hpasses : ∀ p ∈ raw, ∀ field, fields_by_name (pool.messages message) p.1 = some field →
    EntryPasses pool env user_temp s names message field p.2)
  (hread : walkItems pool (s.reader env (converter user_temp)) (some message) [] raw raw [] =
    .ok shown)

include hpool hcontent hpasses hread

/-- An entry that was read goes through again, where it keeps to both rules. -/
theorem entry_runs_iff {q : Text × Value} (hq : q ∈ shown) {v : Value}
    (hsid : resolveEntry (_find_sid names.repr names.reader) (isMarked q.1) q.2 = .ok v) :
    (∃ out, (s.encoder env (converter user_temp) pool names.writer).runEntry message [] (q.1, v) =
      .ok out) ↔
    SourceShown pool s (reached names.reader names.writer) message [] raw q.1 ∧
      SourceShown pool s (accepted s) message [] raw q.1 := by
  have hturns := entry_turns hpool hcontent hpasses hread hq
  have hwritten := fun w hw => entry_written hpool hcontent hpasses hread hq (w := w) hw []
  rw [← hturns]
  constructor
  · rintro ⟨out, hout⟩
    obtain ⟨w, hnid, hvisit⟩ := runEntry_eq_ok.mp hout
    have hturned : TurnedEntry names (isMarked q.1) q.2 w := ⟨v, hsid, hnid⟩
    exact ⟨⟨w, hturned⟩, ((hwritten w hturned).holds hvisit).1⟩
  · rintro ⟨⟨w, hturned⟩, haccepted⟩
    obtain ⟨out, hvisit, -⟩ := (hwritten w hturned).result haccepted
    obtain ⟨v', hsid', hnid⟩ := hturned
    cases hsid.symm.trans hsid'
    exact ⟨out, runEntry_eq_ok.mpr ⟨w, hnid, hvisit⟩⟩

/-- Entries that were read, and have names for their links, go through again where what they were
read from keeps to both rules. -/
theorem entries_run_iff
    (hnamed : resolve_data_ids (_find_sid names.repr names.reader) shown = .ok named)
    (which : Text → Bool) :
    (∀ p ∈ named, which p.1 = true → ∃ out,
      (s.encoder env (converter user_temp) pool names.writer).runEntry message [] p = .ok out) ↔
    ∀ rule ∈ [reached names.reader names.writer, accepted s],
      shownItems pool s rule message [] (raw.filter fun p => which p.1) := by
  have hentries := resolveDict_entries hnamed
  have hrules : (∀ rule ∈ [reached names.reader names.writer, accepted s],
      shownItems pool s rule message [] (raw.filter fun p => which p.1)) ↔
      ∀ q ∈ shown, which q.1 = true →
        SourceShown pool s (reached names.reader names.writer) message [] raw q.1 ∧
          SourceShown pool s (accepted s) message [] raw q.1 := by
    have hsources : ∀ rule ∈ [reached names.reader names.writer, accepted s],
        (∀ q ∈ shown, which q.1 = true → SourceShown pool s rule message [] raw q.1) ↔
          shownItems pool s rule message [] (raw.filter fun p => which p.1) :=
      fun rule hrule => sources_shown_iff hpool hcontent hpasses hread hrule which
    rw [List.forall_mem_cons, List.forall_mem_singleton, ← hsources _ (by simp),
      ← hsources _ (by simp), ← forall₂_and]
    exact forall₂_congr fun q _ => imp_and.symm
  rw [hrules]
  constructor
  · intro hall q hq hwhich
    obtain ⟨p, hp, hkey, hsid⟩ := forall₂_left hentries hq
    have hrun := hall p hp (hkey ▸ hwhich)
    rw [← entry_runs_iff hpool hcontent hpasses hread hq hsid, ← hkey]
    exact hrun
  · intro hall p hp hwhich
    obtain ⟨q, hq, hkey, hsid⟩ := forall₂_right hentries hp
    have hrun := (entry_runs_iff hpool hcontent hpasses hread hq hsid).mpr
      (hall q hq (hkey ▸ hwhich))
    rw [← hkey] at hrun
    exact hrun

end

end devcon_spark.codec.content

namespace devcon_spark.spark_api

/-! ## Blocks that are shown -/

/-- The store once the name of a block was taken over. -/
def syncedStore (store : BlockStore) (block : FirmwareBlock) : BlockStore :=
  if named block.id ∧ block.nid ≠ 0 then store.put block.id (some block.nid) else store

theorem syncedStore_twice (store : BlockStore) (block : FirmwareBlock) :
    syncedStore (syncedStore store block) block = syncedStore store block := by
  unfold syncedStore
  split
  · exact Bidict.put_put store _ _
  · rfl

/-- The data of a block as it is shown: links by name, instructions as lines. -/
def shownData (env : Environment) (store : BlockStore) (block : FirmwareBlock) :
    Except Exn Dict := do
  let data ← resolve_data_ids (_find_sid env.repr store) block.data
  if block.type = SEQUENCE_BLOCK_TYPE then sequence.serialize env.timeparse env.repr data
  else return data

/-- The data of a block with instructions for its lines. -/
def parsedData (env : Environment) (block : Block) : Except Exn Dict :=
  if block.type = SEQUENCE_BLOCK_TYPE then sequence.parse env.timeparse env.repr block.data
  else return block.data

/-- The data of a block as it is restored: instructions, and links by number. -/
def restoredData (env : Environment) (store : BlockStore) (block : Block) : Except Exn Dict := do
  let data ← parsedData env block
  resolve_data_ids (_find_nid store) data

section
variable {env : Environment} {w w' : World}

theorem sync_run (block : FirmwareBlock) (w : World) :
    (_sync_block_id block.id block.nid).run.run w =
      (.ok (), { w with block_store := syncedStore w.block_store block }) := by
  unfold _sync_block_id syncedStore
  split
  · rfl
  · rfl

theorem find_sid_int (repr : Value → Text) (store : BlockStore) (n : Int) :
    ∃ sid, _find_sid repr store (.int n) = .ok sid := by
  unfold _find_sid
  dsimp only
  split
  · exact ⟨_, rfl⟩
  · split <;> exact ⟨_, rfl⟩

theorem identity_run (block : FirmwareBlock) (w : World) : ∃ ident : BlockIdentity,
    (_to_block_identity env block).run.run w =
      (.ok ident, { w with block_store := syncedStore w.block_store block }) ∧
        ident.nid = some block.nid := by
  unfold _to_block_identity
  rw [run_bind_ok (sync_run block w), run_bind_ok (run_get _)]
  obtain ⟨sid, hsid⟩ := find_sid_int env.repr (syncedStore w.block_store block) block.nid
  dsimp only
  split
  · exact ⟨_, rfl, rfl⟩
  · rw [hsid]
    cases sid <;> exact ⟨_, rfl, rfl⟩

/-- A block is shown by the names that are known once its own was taken over. -/
theorem to_block_run (block : FirmwareBlock) (w : World) : ∃ id serviceId,
    (_to_block env block).run.run w =
      ((shownData env (syncedStore w.block_store block) block).map fun data =>
        ({ id, nid := some block.nid, type := block.type, serviceId, data } : Block),
          { w with block_store := syncedStore w.block_store block }) := by
  obtain ⟨ident, hident, hnid⟩ := @identity_run env block
    { w with block_store := syncedStore w.block_store block }
  rw [syncedStore_twice] at hident
  refine ⟨ident.id, ident.serviceId, ?_⟩
  unfold _to_block shownData
  rw [run_bind_ok (sync_run block w), run_bind_ok hident, run_bind_ok (run_get _), hnid]
  dsimp only
  rcases hresolve : resolve_data_ids (_find_sid env.repr (syncedStore w.block_store block))
    block.data with ex | named
  · exact run_bind_error (run_lift _ _) _
  · rw [run_bind_ok (run_lift _ _), ok_bind]
    by_cases htype : block.type = SEQUENCE_BLOCK_TYPE
    · simp only [if_pos htype]
      rcases sequence.serialize env.timeparse env.repr named with ex | data
      · rfl
      · rfl
    · simp only [if_neg htype]
      rfl

/-- The store that a block of a list is shown by: its own name was taken over, and those of the
blocks before it. -/
def storeAt (store : BlockStore) (blocks : List FirmwareBlock) (i : Nat) : BlockStore :=
  (blocks.take (i + 1)).foldl syncedStore store

/-- The block that is shown of one that was sent by the controller. -/
structure ShownBlock (env : Environment) (store : BlockStore) (sent : FirmwareBlock)
    (block : Block) : Prop where
  nid : block.nid = some sent.nid
  type : block.type = sent.type
  data : shownData env store sent = .ok block.data

/-- Each block of a list that is shown, is shown in its place. -/
theorem to_blocks_run {sent : List FirmwareBlock} {blocks : List Block}
    (h : (sent.mapM (_to_block env)).run.run w = (.ok blocks, w')) (i : Nat) :
    ∀ block, blocks[i]? = some block → ∃ b, sent[i]? = some b ∧
      ShownBlock env (storeAt w.block_store sent i) b block := by
  induction sent generalizing w blocks i with
  | nil =>
    cases h
    intro block hblock
    cases hblock
  | cons b sent ih =>
    obtain ⟨id, serviceId, hfirst⟩ := @to_block_run env b w
    rw [List.mapM_cons] at h
    rcases hdata : shownData env (syncedStore w.block_store b) b with ex | data
    · rw [hdata] at hfirst
      rw [run_bind_error hfirst] at h
      cases h
    · rw [hdata] at hfirst
      rw [run_bind_ok hfirst, run_bind] at h
      rcases hrest : (sent.mapM (_to_block env)).run.run
        { w with block_store := syncedStore w.block_store b } with ⟨ex | rest, w''⟩
      · rw [hrest] at h
        cases h
      · rw [hrest] at h
        cases h
        intro block hblock
        cases i with
        | zero =>
          cases hblock
          exact ⟨b, rfl, rfl, rfl, hdata⟩
        | succ i => exact ih hrest i block hblock

/-- What a backup is made of: the blocks that the controller sent, as they are shown. -/
theorem make_backup_inv {open_ : World} {sent : List FirmwareBlock} {shared : Shared}
    {exported : Backup} (hadmitted : admitted env w = .ok open_)
    (hreply : env.reply open_.requests (.read_all_blocks .STORED) open_.toShared =
      (.ok sent, shared))
    (h : (make_backup env).run.run w = (.ok exported, w')) :
    ∃ w'', (sent.mapM (_to_block env)).run.run
      (open_.after (.read_all_blocks .STORED) shared) = (.ok exported.blocks, w'') := by
  have hread : (cmder env (.read_all_blocks .STORED) : Api (List FirmwareBlock)).run.run open_ =
      (.ok sent, open_.after (.read_all_blocks .STORED) shared) := run_cmder hreply
  have hall : (read_all_stored_blocks env).run.run w = executed
      ((sent.mapM (_to_block env)).run.run (open_.after (.read_all_blocks .STORED) shared)) :=
    (execute_admitted _ hadmitted).trans (congrArg executed (run_bind_ok hread _))
  unfold make_backup at h
  rcases hblocks : (sent.mapM (_to_block env)).run.run
    (open_.after (.read_all_blocks .STORED) shared) with ⟨ex | blocks, w''⟩
  · rw [hblocks] at hall
    rw [run_bind_error hall] at h
    cases h
  · rw [hblocks] at hall
    rw [run_bind_ok hall, run_bind_ok (run_get _)] at h
    split at h
    · cases h
    · cases h
      exact ⟨_, rfl⟩

end

/-! ## Blocks that are restored -/

section
variable {env : Environment} {w w' : World}

/-- What a block of a backup becomes, by the names that are known. -/
theorem outcome_eq {block : Block} {nid : Int} (h : block.nid = some nid) :
    outcome env w block = (restoredData env w.block_store block).map fun data =>
      ({ id := block.id, nid, type := block.type, data } : FirmwareBlock) := by
  have hident : (_to_firmware_block_identity block.identity).run.run w =
      (.ok { id := block.id, nid, type := some block.type }, w) := by
    unfold _to_firmware_block_identity Block.identity
    rw [h]
    rfl
  unfold outcome _to_firmware_block restoredData parsedData
  rw [run_bind_ok hident, run_bind_ok (run_get _)]
  dsimp only
  by_cases htype : block.type = SEQUENCE_BLOCK_TYPE
  · simp only [if_pos htype]
    rcases sequence.parse env.timeparse env.repr block.data with ex | data
    · rfl
    · rw [run_bind_ok (run_lift _ _), ok_bind]
      cases resolve_data_ids (_find_nid w.block_store) data <;> rfl
  · simp only [if_neg htype, pure_bind]
    cases resolve_data_ids (_find_nid w.block_store) block.data <;> rfl

/-- What comes after the blocks adds its requests to theirs. -/
theorem names_requests (result : BackupApplyResult) (w : World) : ∃ rest,
    (((cmder env .discover_blocks : Api (List FirmwareBlock)) >>= fun _ =>
      load_block_names env >>= fun _ => pure result).run.run w).2.requests =
        w.requests ++ rest := by
  obtain ⟨found, shared, hfound⟩ : ∃ answer shared,
      (cmder env .discover_blocks : Api (List FirmwareBlock)).run.run w =
        (answer, w.after .discover_blocks shared) := ⟨_, _, run_cmder rfl⟩
  cases found with
  | error ex =>
    rw [run_bind_error hfound]
    exact ⟨_, rfl⟩
  | ok found =>
    obtain ⟨names, shared', hnames⟩ : ∃ answer shared',
        (cmder env .read_all_block_names : Api (List FirmwareBlock)).run.run
          (w.after .discover_blocks shared) =
        (answer, (w.after .discover_blocks shared).after .read_all_block_names shared') :=
      ⟨_, _, run_cmder rfl⟩
    refine ⟨[.discover_blocks, .read_all_block_names], ?_⟩
    rw [run_bind_ok hfound]
    cases names with
    | error ex =>
      have hloaded : (load_block_names env).run.run (w.after .discover_blocks shared) =
          (.error ex, _) := run_bind_error hnames _
      rw [run_bind_error hloaded]
      exact List.append_assoc _ _ _
    | ok names =>
      have hloaded : (load_block_names env).run.run (w.after .discover_blocks shared) =
          (.ok (), _) := (run_bind_ok hnames _).trans (run_modifyStore _ _)
      rw [run_bind_ok hloaded]
      exact List.append_assoc _ _ _

/-- The blocks that resolve are handed over once the controller was cleared, whatever comes
after. -/
theorem apply_backup_sends {exported : Backup} {cleared : World} {idents : List BlockIdentity}
    (hclear : (clear_blocks env).run.run w = (.ok idents, cleared)) :
    ∃ rest, ((apply_backup env exported).run.run w).2.requests =
      cleared.requests ++ (sentBlocks env exported cleared).map importRequest ++ rest := by
  have hfirst : (apply_backup env exported).run.run w =
      (((cmder env .discover_blocks : Api (List FirmwareBlock)) >>= fun _ =>
        load_block_names env >>= fun _ =>
          pure { messages := accountMessages env exported cleared }).run.run
            (imported env exported cleared).2) := by
    unfold apply_backup
    refine (run_bind_ok hclear _).trans ?_
    refine (run_bind_ok (run_modifyStore _ _) _).trans ?_
    refine (run_bind_ok (run_modifyStore _ _) _).trans ?_
    refine (run_bind_ok (resolveBlocks_run _) _).trans ?_
    exact run_bind_ok (importBlocks_run _ _) _
  have hrequests : (imported env exported cleared).2.requests =
      cleared.requests ++ (sentBlocks env exported cleared).map importRequest :=
    importAnswers_requests _ _
  rw [hfirst, ← hrequests]
  exact names_requests _ _

theorem seeded_numbers {exported : Backup} {store : BlockStore}
    (hstore : ∀ name, store.get? name ≠ some none)
    (hnids : ∀ block ∈ exported.blocks, block.nid ≠ none) (name : Option String) :
    (seededStore exported store).get? name ≠ some none := by
  intro hnone
  rcases Bidict.mem_of_get?_update hnone with hmem | hsystem
  · obtain ⟨block, hblock, heq⟩ := List.mem_map.mp (mem_dictOf hmem)
    exact hnids block hblock (congrArg Prod.snd heq)
  · rcases Bidict.mem_of_get?_update hsystem with hmem | hstored
    · obtain ⟨p, -, heq⟩ := List.mem_map.mp hmem
      cases congrArg Prod.snd heq
    · exact hstore name hstored

end

/-! ## The data of a block that is restored -/

theorem serialize_inv {timeparse : Text → Option ℚ} {repr : Value → Text} {data out : Dict}
    (hkeys : (data.map (·.1)).Nodup) (h : sequence.serialize timeparse repr data = .ok out) :
    out.map (·.1) = data.map (·.1) ∧
      (∀ p : Text × Value, p.1 ≠ "instructions".toList → (p ∈ out ↔ p ∈ data)) ∧
      ∀ v, get? out "instructions".toList = some v → ∃ lines, v = .list lines := by
  unfold sequence.serialize sequence.mapInstructions at h
  cases hget : get? data "instructions".toList with
  | none =>
    rw [hget] at h
    cases h
    exact ⟨rfl, fun _ _ => Iff.rfl, fun v hv => by rw [hget] at hv; cases hv⟩
  | some v =>
    obtain ⟨before, after, rfl, hbefore, hafter⟩ := split_of_get? hkeys hget
    rw [hget] at h
    obtain ⟨vs, -, h⟩ := bind_eq_ok.mp h
    obtain ⟨ws, -, h⟩ := bind_eq_ok.mp h
    cases h
    rw [setItem_middle _ hbefore hafter]
    refine ⟨by simp, fun p hp => ?_, fun w hw => ?_⟩
    · have hne : ∀ w, p ≠ ("instructions".toList, w) := by
        rintro w rfl
        exact hp rfl
      simp only [List.mem_append, List.mem_cons, hne, false_or]
    · rw [get?_middle hbefore] at hw
      cases hw
      exact ⟨ws, rfl⟩

/-- What of the content is shown as it was read: the instructions of a Sequence become lines. -/
def besideLines (type : String) (raw : Dict) : Dict :=
  if type = SEQUENCE_BLOCK_TYPE then raw.filter (·.1 ≠ "instructions".toList) else raw

section
variable {env other : Environment} {block : Block}

theorem restored_runs_iff {e : Encoder} {message : Text} :
    (∃ numbered obj, restoredData other e.block_store block = .ok numbered ∧
      walkItems e.pool e.visit (some message) [] numbered numbered [] = .ok obj) ↔
    ∃ parsed obj, parsedData other block = .ok parsed ∧ e.run message [] parsed = .ok obj := by
  constructor
  · rintro ⟨numbered, obj, hdata, hobj⟩
    obtain ⟨parsed, hparsed, hnumbered⟩ := bind_eq_ok.mp hdata
    exact ⟨parsed, obj, hparsed, bind_eq_ok.mpr ⟨numbered, hnumbered, hobj⟩⟩
  · rintro ⟨parsed, obj, hparsed, hrun⟩
    obtain ⟨numbered, hnumbered, hobj⟩ := bind_eq_ok.mp hrun
    exact ⟨numbered, obj, bind_eq_ok.mpr ⟨parsed, hparsed, hnumbered⟩, hobj⟩

end

section
variable {pool : Pool} {packages : Packages} {user_temp : Text} {s : Passage} {names : Naming}

/-- The data of a block goes through again exactly where what it was read from keeps to both rules,
and its lines are taken. -/
theorem data_runs_iff (hpool : Schema pool) (hexact : Exact packages user_temp)
    (hmode : s.mode ≠ .LOGGED) (htemperatures : ConvertsTemperatures packages.quantity)
    {env other : Environment} (hrepr : names.repr = env.repr) {message : Text} {raw shown : Dict}
    (hcontent : contentItems pool rawLeaf message raw)
    (hread : walkItems pool (s.reader packages (converter user_temp)) (some message) [] raw raw []
      = .ok shown)
    {sent : FirmwareBlock} {block : Block} (hdata : sent.data = shown)
    (hblock : ShownBlock env names.reader sent block)
    (hmessages : block.type = SEQUENCE_BLOCK_TYPE → SequenceMessages pool message) :
    (∃ parsed obj, parsedData other block = .ok parsed ∧
      (s.encoder packages (converter user_temp) pool names.writer).run message [] parsed =
        .ok obj) ↔
    (∀ rule ∈ [reached names.reader names.writer, accepted s],
      shownItems pool s rule message [] (besideLines block.type raw)) ∧
      (block.type = SEQUENCE_BLOCK_TYPE → ∀ line ∈ sequence.linesOf block.data,
        sequence.LineTaken packages other.timeparse names.writer line) := by
  have hpasses := entries_pass hcontent fun p _ =>
    @passes pool packages user_temp s names hpool hexact hmode p.2
  obtain ⟨hbases, -⟩ := read_keys hpool hcontent hread
  obtain ⟨named, hnamed, hserialize⟩ := bind_eq_ok.mp hblock.data
  rw [hdata, ← hrepr] at hnamed
  have hentries := entries_run_iff hpool hcontent hpasses hread hnamed
  have hnames := resolved_keys hnamed
  rw [← bases_of_keys hnames] at hbases
  unfold parsedData besideLines
  rw [← hblock.type] at hserialize
  by_cases htype : block.type = SEQUENCE_BLOCK_TYPE
  · rw [if_pos htype] at hserialize ⊢
    have hkeys : (named.map (·.1)).Nodup := List.Nodup.of_map baseOf (by rwa [List.map_map])
    obtain ⟨hsame, hothers, hlist⟩ := serialize_inv hkeys hserialize
    rw [← bases_of_keys hsame] at hbases
    have hencodes : EncodesLines (s.encoder packages (converter user_temp) pool names.writer)
        user_temp message :=
      ⟨hmessages htype, rfl, hexact, htemperatures, names.numbers⟩
    have hbeside := hentries (· ≠ "instructions".toList)
    simp only [decide_eq_true_eq] at hbeside
    simp only [htype, if_true, true_imp_iff]
    rw [sequence_runs_iff hencodes other.repr hpool hbases hlist, ← hbeside]
    refine and_congr_left fun _ => ?_
    constructor
    · exact fun hall p hp hne => hall p ((hothers p hne).mpr hp) hne
    · exact fun hall p hp hne => hall p ((hothers p hne).mp hp) hne
  · rw [if_neg htype] at hserialize ⊢
    cases hserialize
    have hall := hentries fun _ => true
    rw [List.filter_true] at hall
    simp only [htype, false_imp_iff, and_true, if_false]
    rw [← hall]
    simp only [true_imp_iff]
    rw [← run_returns_iff hbases]
    simp [pure, Except.pure]

end

/-! ## Blocks that are encoded -/

/-- The service encodes a block: it is encoded with any Protobuf that serializes what it gets. -/
def Encodes (codec : Codec) (block : FirmwareBlock) : Prop :=
  ∀ serialize : Text → Dict → Except Exn Bytes,
    (∀ message content, ∃ data, serialize message content = .ok data) →
      ∃ payload, command._to_payload { codec with protobuf := { codec.protobuf with serialize } }
        (command.identityOf block) = .ok payload

/-- A codec as `setup` leaves it, with the compiled messages. -/
structure Compiled (codec : Codec) (messages : List (Text × Int)) : Prop where
  proper : Proper codec.lookup.BlockType messages
  /-- No block type is without a name. -/
  unnamed : "" ∉ codec.lookup.BlockType.map (·.1)
  setup : ∃ edgeCase, setup codec.lookup.BlockType messages edgeCase = .ok codec.lookup
  /-- Protobuf reads content of the message that it is asked for. -/
  parsed : ∀ impl ∈ codec.lookup.objects, ∀ data raw,
    codec.protobuf.parse impl.message_cls data true = .ok raw →
      contentItems codec.pool rawLeaf impl.message_cls raw
  sequence : ∀ impl ∈ codec.lookup.objects, impl.type_str = SEQUENCE_BLOCK_TYPE →
    SequenceMessages codec.pool impl.message_cls

section
variable {codec : Codec} {messages : List (Text × Int)} (hcodec : Compiled codec messages)

include hcodec

theorem Compiled.registered {impl : InterfaceLookup} (himpl : impl ∈ codec.lookup.combined) :
    Registered codec.lookup.BlockType impl := by
  obtain ⟨edgeCase, hsetup⟩ := hcodec.setup
  exact (registered_of_setup hcodec.proper hsetup).2 impl himpl

omit hcodec in
theorem mem_combined {blockType : Option BlockTypeId} {impl : ObjectLookup}
    (h : codec.lookup.objects.find? (·.has blockType) = some impl) :
    impl.toInterfaceLookup ∈ codec.lookup.combined :=
  List.mem_append_left _ (List.mem_map_of_mem (List.mem_of_find?_eq_some h))

/-- A number has one name. -/
theorem Compiled.unique {v v' : InterfaceLookup} (hv : v ∈ codec.lookup.combined)
    (hv' : v' ∈ codec.lookup.combined) (h : v.type_int = v'.type_int) : v.type_str = v'.type_str :=
  type_str_unique hcodec.proper (hcodec.registered hv) (hcodec.registered hv') h

/-- A type of the lookups has a name, and it is not that of a stub. -/
theorem Compiled.type_str {impl : InterfaceLookup} (himpl : impl ∈ codec.lookup.combined) :
    impl.type_str ≠ "" ∧ impl.type_str ∉ [UNKNOWN_TYPE_STR, ERROR_TYPE_STR] := by
  have hvalue := (hcodec.registered himpl).value
  have hknown : ∀ name, name ∉ codec.lookup.BlockType.map (·.1) → name ≠ "EdgeCase" →
      impl.type_str ≠ name := by
    rintro _ hname hne rfl
    obtain ⟨ex, hex⟩ := value_error hname
    unfold blockTypeValue at hvalue
    rw [hex] at hvalue
    dsimp only at hvalue
    rw [if_neg hne] at hvalue
    cases hvalue
  refine ⟨hknown "" hcodec.unnamed (by decide), fun hstub => ?_⟩
  rcases List.mem_pair.mp hstub with h | h
  · exact hknown _ (hcodec.proper.reserved UNKNOWN_TYPE_STR (by simp)) (by decide) h
  · exact hknown _ (hcodec.proper.reserved ERROR_TYPE_STR (by simp)) (by decide) h

/-- A block of an object is encoded where its data goes through. -/
theorem object_encodes_iff {blockType : Option BlockTypeId} {impl : ObjectLookup}
    (hfind : codec.lookup.objects.find? (·.has blockType) = some impl) {block : FirmwareBlock}
    (htype : block.type = impl.type_str) :
    Encodes codec block ↔ ∃ obj, walkItems codec.pool
      (encodeElement codec.env codec.units codec.filter_values) (some impl.message_cls) []
        block.data block.data [] = .ok obj := by
  have hmem := mem_combined hfind
  have hregistered := hcodec.registered hmem
  have hnamed : named (some impl.type_str) = true := by
    simpa [named] using (hcodec.type_str hmem).1
  have hnumber := find_number (fun v hv v' hv' => hcodec.unique
    (List.mem_append_left _ (List.mem_map_of_mem hv))
    (List.mem_append_left _ (List.mem_map_of_mem hv'))) hfind
  constructor
  · intro h
    obtain ⟨payload, hpayload⟩ := h (fun _ _ => .ok []) fun _ _ => ⟨_, rfl⟩
    have hencode := mapError_eq_ok.mp hpayload
    unfold encodePayload command.identityOf at hencode
    simp only [htype, hnamed, if_true, hregistered.value, ok_bind,
      if_neg hregistered.not_deprecated, hnumber] at hencode
    obtain ⟨encoded, hpre, -⟩ := bind_eq_ok.mp hencode
    obtain ⟨_, ⟨⟩, hpre⟩ := bind_eq_ok.mp hpre
    obtain ⟨obj, hobj, -⟩ := bind_eq_ok.mp hpre
    exact ⟨obj, hobj⟩
  · rintro ⟨obj, hobj⟩ serialize hserialize
    obtain ⟨data, hdata⟩ := hserialize impl.message_cls obj
    have hencode : ∃ payload, encodePayload
        { codec with protobuf := { codec.protobuf with serialize } }
        { blockId := block.nid, blockType := some impl.type_str, name := block.id
          content := some block.data } codec.filter_values = .ok payload := by
      unfold encodePayload pre_encode contentOf
      simp only [hregistered.value, ok_bind, if_neg hregistered.not_deprecated, hnumber, hobj,
        Option.isNone_some]
      exact ⟨_, bind_eq_ok.mpr ⟨_, rfl, bind_eq_ok.mpr ⟨obj, rfl,
        bind_eq_ok.mpr ⟨data, hdata, rfl⟩⟩⟩⟩
    obtain ⟨payload, hpayload⟩ := hencode
    refine ⟨payload, mapError_eq_ok.mpr ?_⟩
    unfold command.identityOf
    simp only [htype, hnamed, if_true]
    exact hpayload

end

/-- A block that is encoded is encoded as one with a type. -/
theorem encodes_payload {codec : Codec} {block : FirmwareBlock} (h : Encodes codec block)
    (hnamed : block.type ≠ "") : ∃ payload, encode_payload
      { codec with protobuf := { codec.protobuf with serialize := fun _ _ => .ok [] } }
      { blockId := block.nid, blockType := some block.type, name := block.id
        content := some block.data } = .ok payload := by
  obtain ⟨payload, hpayload⟩ := h (fun _ _ => .ok []) fun _ _ => ⟨_, rfl⟩
  have hname : named (some block.type) = true := by simpa [named] using hnamed
  unfold command._to_payload command.identityOf at hpayload
  simp only [hname, if_true] at hpayload
  exact ⟨payload, hpayload⟩

/-! ## Blocks of each kind -/

/-- What a block of a backup was decoded from. -/
inductive Decoded (codec : Codec) (payload : EncodedPayload) (sent : FirmwareBlock) : Prop
  | stub (htype : sent.type ∈ [UNKNOWN_TYPE_STR, ERROR_TYPE_STR])
  | deprecated {n : Int} (hvalue : codec.lookup.BlockType.Value "Deprecated" = .ok n)
      (htype : sent.type = "Deprecated")
      (hdata : sent.data = [("bytes".toList, contentField payload.content)])
  | object {impl : ObjectLookup} {data : Bytes} {raw : Dict}
      (hfind : codec.lookup.objects.find? (·.has payload.blockType) = some impl)
      (htype : sent.type = impl.type_str) (hbytes : decodeContent payload.content = .ok data)
      (hparse : codec.protobuf.parse impl.message_cls data true = .ok raw)
      (hread : walkItems codec.pool (decodeElement codec.env codec.units .STORED
        codec.filter_values payload.maskMode payload.maskFields) (some impl.message_cls) [] raw raw
          [] = .ok sent.data)
  | interface {impl : InterfaceLookup}
      (hnone : codec.lookup.objects.find? (·.has payload.blockType) = none)
      (hfind : codec.lookup.interfaces.find? (·.has payload.blockType) = some impl)
      (htype : sent.type = impl.type_str)

theorem decoded_of_to_block {codec : Codec} {payload : EncodedPayload} {sent : FirmwareBlock}
    (h : command._to_block codec payload .STORED = .ok sent) : Decoded codec payload sent := by
  unfold command._to_block decode_payload at h
  rw [Option.getD_none] at h
  cases hdecode : decodePayload codec payload .STORED codec.filter_values with
  | error ex =>
    rw [hdecode] at h
    cases h
    exact .stub (by simp)
  | ok decoded =>
    rw [hdecode] at h
    unfold decodePayload at hdecode
    obtain ⟨n, hvalue, hdecode⟩ := bind_eq_ok.mp hdecode
    split at hdecode
    · cases hdecode
      cases h
      exact .deprecated hvalue rfl rfl
    · split at hdecode
      case h_1 impl hfind =>
        obtain ⟨data, hbytes, hdecode⟩ := bind_eq_ok.mp hdecode
        obtain ⟨raw, hparse, hdecode⟩ := bind_eq_ok.mp hdecode
        obtain ⟨_, ⟨⟩, hdecode⟩ := bind_eq_ok.mp hdecode
        obtain ⟨shown, hread, hdecode⟩ := bind_eq_ok.mp hdecode
        cases hdecode
        cases h
        exact .object hfind rfl hbytes hparse hread
      case h_2 hnone =>
        split at hdecode
        case h_1 impl hfind =>
          cases hdecode
          cases h
          exact .interface hnone hfind rfl
        case h_2 =>
          cases hdecode
          cases h
          exact .stub (by simp)

/-- How the codec reads a payload of a backup, and writes its block again. -/
def passage (codec : Codec) (payload : EncodedPayload) : Passage where
  mode := .STORED
  filter_read := codec.filter_values
  maskMode := payload.maskMode
  maskFields := payload.maskFields
  filter_write := codec.filter_values

/-- A block of a backup, which was read by the names of one store, is restored by those of another:
it is of a deprecated type, or what it was read from can be handed back, and its lines are taken. -/
inductive Restorable (codec : Codec) (timeparse : Text → Option ℚ) (reader writer : BlockStore)
    (payload : EncodedPayload) (block : Block) : Prop
  | deprecated (htype : block.type = "Deprecated") (hcontent : payload.content.isSome = true)
  | object {impl : ObjectLookup} {data : Bytes} {raw : Dict}
      (hfind : codec.lookup.objects.find? (·.has payload.blockType) = some impl)
      (htype : block.type = impl.type_str) (hbytes : decodeContent payload.content = .ok data)
      (hparse : codec.protobuf.parse impl.message_cls data true = .ok raw)
      (hshown : ∀ rule ∈ [reached reader writer, accepted (passage codec payload)],
        shownItems codec.pool (passage codec payload) rule impl.message_cls []
          (besideLines block.type raw))
      (hlines : block.type = SEQUENCE_BLOCK_TYPE → ∀ line ∈ linesOf block.data,
        LineTaken codec.env timeparse writer line)

section
variable {codec : Codec} {messages : List (Text × Int)} (hcodec : Compiled codec messages)
variable {env other : Environment} {reader : BlockStore} {w : World}
variable {payload : EncodedPayload} {sent : FirmwareBlock} {block : Block}

/-- What is restored of a block, before it is encoded. -/
theorem outcome_encodes_iff (hnid : block.nid = some sent.nid) :
    (∃ restored, outcome other w block = .ok restored ∧ Encodes codec restored) ↔
      ∃ numbered, restoredData other w.block_store block = .ok numbered ∧ Encodes codec
        { id := block.id, nid := sent.nid, type := block.type, data := numbered } := by
  rw [outcome_eq hnid]
  constructor
  · rintro ⟨restored, hrestored, hencodes⟩
    obtain ⟨numbered, hnumbered, rfl⟩ := map_eq_ok.mp hrestored
    exact ⟨numbered, hnumbered, hencodes⟩
  · rintro ⟨numbered, hnumbered, hencodes⟩
    exact ⟨_, map_eq_ok.mpr ⟨numbered, hnumbered, rfl⟩, hencodes⟩

include hcodec

theorem not_deprecated {impl : InterfaceLookup} (himpl : impl ∈ codec.lookup.combined)
    (htype : block.type = impl.type_str) : block.type ≠ "Deprecated" := by
  rw [htype]
  exact (hcodec.registered himpl).not_deprecated

/-- A block of an unknown type, or one that could not be decoded, is refused. -/
theorem stub_is_not_restored {timeparse : Text → Option ℚ} {writer : BlockStore}
    (htype : block.type ∈ [UNKNOWN_TYPE_STR, ERROR_TYPE_STR]) :
    (∀ nid numbered,
      ¬ Encodes codec { id := block.id, nid, type := block.type, data := numbered }) ∧
      ¬ Restorable codec timeparse reader writer payload block := by
  have hnamed : block.type ≠ "" := by
    intro h
    rw [h] at htype
    exact absurd htype (by decide)
  refine ⟨fun nid numbered h => ?_, fun h => ?_⟩
  · obtain ⟨encoded, hencoded⟩ := encodes_payload h hnamed
    have hstub : isStub { blockId := nid, blockType := some block.type, name := block.id
                          content := some numbered } :=
      (List.mem_pair.mp htype).imp (congrArg some) (congrArg some)
    obtain ⟨ex, hex⟩ := @stub_is_refused messages
      { codec with protobuf := { codec.protobuf with serialize := fun _ _ => .ok [] } }
      hcodec.proper _ hstub none
    cases hencoded.symm.trans hex
  · cases h with
    | deprecated hdeprecated =>
      rw [hdeprecated] at htype
      exact absurd htype (by decide)
    | object hfind hobject => exact (hcodec.type_str (mem_combined hfind)).2 (hobject ▸ htype)

omit hcodec in
theorem has_congr {v v' : InterfaceLookup} (hstr : v.type_str = v'.type_str)
    (hint : v.type_int = v'.type_int) (blockType : Option BlockTypeId) :
    v.has blockType = v'.has blockType := by
  unfold InterfaceLookup.has
  rw [hstr, hint]

/-- A block of an interface has no content, and nothing encodes the data that it was shown with. -/
theorem interface_is_not_restored {timeparse : Text → Option ℚ} {writer : BlockStore}
    {impl : InterfaceLookup} (hnone : codec.lookup.objects.find? (·.has payload.blockType) = none)
    (hfind : codec.lookup.interfaces.find? (·.has payload.blockType) = some impl)
    (htype : block.type = impl.type_str) :
    (∀ nid numbered,
      ¬ Encodes codec { id := block.id, nid, type := block.type, data := numbered }) ∧
      ¬ Restorable codec timeparse reader writer payload block := by
  have hmem : impl ∈ codec.lookup.combined :=
    List.mem_append_right _ (List.mem_of_find?_eq_some hfind)
  have hregistered := hcodec.registered hmem
  have hobjects : codec.lookup.objects.find? (·.type_int = impl.type_int) = none := by
    refine List.find?_eq_none.mpr fun v hv hint => ?_
    have hint : v.type_int = impl.type_int := by simpa using hint
    have hstr := hcodec.unique (List.mem_append_left _ (List.mem_map_of_mem hv)) hmem hint
    refine List.find?_eq_none.mp hnone v hv ?_
    have hhas := List.find?_some hfind
    rwa [has_congr hstr hint]
  refine ⟨fun nid numbered h => ?_, fun h => ?_⟩
  · obtain ⟨encoded, hencoded⟩ := encodes_payload h (by
      rw [htype]
      exact (hcodec.type_str hmem).1)
    have hencode := mapError_eq_ok.mp hencoded
    unfold encodePayload at hencode
    simp only [htype, hregistered.value, ok_bind, if_neg hregistered.not_deprecated,
      Option.isNone_some, hobjects] at hencode
    cases hencode
  · cases h with
    | deprecated hdeprecated => exact not_deprecated hcodec hmem htype hdeprecated
    | object hobject =>
      rw [hnone] at hobject
      cases hobject

/-- A block of a deprecated type is restored where it has content. -/
theorem deprecated_restored_iff {timeparse : Text → Option ℚ} {writer : BlockStore} {n : Int}
    (hvalue : codec.lookup.BlockType.Value "Deprecated" = .ok n) (htype : sent.type = "Deprecated")
    (hdata : sent.data = [("bytes".toList, contentField payload.content)])
    (hblock : ShownBlock env reader sent block) :
    (∃ numbered, restoredData other writer block = .ok numbered ∧ Encodes codec
      { id := block.id, nid := sent.nid, type := block.type, data := numbered }) ↔
      Restorable codec timeparse reader writer payload block := by
  rw [← hblock.type] at htype
  have hresolved : ∀ replacer, resolve_data_ids replacer
      [("bytes".toList, contentField payload.content)] =
        .ok [("bytes".toList, contentField payload.content)] := by
    intro replacer
    cases payload.content <;> rfl
  have hother : block.type ≠ SEQUENCE_BLOCK_TYPE ∧ block.type ≠ "" := by
    rw [htype]
    decide
  have hshown : block.data = [("bytes".toList, contentField payload.content)] := by
    have hshown := hblock.data
    unfold shownData at hshown
    rw [hdata, hresolved, ok_bind, ← hblock.type, if_neg hother.1] at hshown
    exact (Except.ok.inj hshown).symm
  have hrestored : restoredData other writer block =
      .ok [("bytes".toList, contentField payload.content)] := by
    unfold restoredData parsedData
    rw [if_neg hother.1, pure_bind, hshown, hresolved]
  constructor
  · rintro ⟨numbered, hnumbered, hencodes⟩
    cases hrestored.symm.trans hnumbered
    obtain ⟨encoded, hencoded⟩ := encodes_payload hencodes hother.2
    have hencode := mapError_eq_ok.mp hencoded
    unfold encodePayload blockTypeValue at hencode
    simp only [htype, hvalue, ok_bind, if_true] at hencode
    obtain ⟨bytes, hbytes, -⟩ := bind_eq_ok.mp hencode
    refine .deprecated htype ?_
    cases hcontent : payload.content with
    | some content => rfl
    | none =>
      rw [hcontent] at hbytes
      cases hbytes
  · intro h
    cases h with
    | deprecated _ hcontent =>
      obtain ⟨content, hcontent⟩ := Option.isSome_iff_exists.mp hcontent
      refine ⟨_, hrestored, fun serialize _ =>
        ⟨{ blockId := sent.nid, blockType := some (.int n), name := block.id
           content := some content }, ?_⟩⟩
      rw [htype, hcontent]
      refine encode_deprecated content ?_ ?_ ?_ none
      exacts [hvalue, rfl, rfl]
    | object hfind hobject =>
      exact absurd htype (not_deprecated hcodec (mem_combined hfind) hobject)

variable {user_temp : Text}

/-- A block of an object is restored where what it was read from can be handed back. -/
theorem object_restored_iff (hunits : codec.units = converter user_temp)
    (hexact : Exact codec.env user_temp) (hpool : Schema codec.pool)
    (htemperatures : ConvertsTemperatures codec.env.quantity)
    {writer : BlockStore} (hnumbers : ∀ name, writer.get? name ≠ some none)
    {impl : ObjectLookup} {data : Bytes} {raw : Dict}
    (hfind : codec.lookup.objects.find? (·.has payload.blockType) = some impl)
    (htype : sent.type = impl.type_str) (hbytes : decodeContent payload.content = .ok data)
    (hparse : codec.protobuf.parse impl.message_cls data true = .ok raw)
    (hread : walkItems codec.pool (decodeElement codec.env codec.units .STORED codec.filter_values
      payload.maskMode payload.maskFields) (some impl.message_cls) [] raw raw [] = .ok sent.data)
    (hblock : ShownBlock env reader sent block) :
    (∃ numbered, restoredData other writer block = .ok numbered ∧ Encodes codec
      { id := block.id, nid := sent.nid, type := block.type, data := numbered }) ↔
      Restorable codec other.timeparse reader writer payload block := by
  rw [← hblock.type] at htype
  have himpl := List.mem_of_find?_eq_some hfind
  let names : Naming := ⟨env.repr, reader, writer, hnumbers⟩
  rw [hunits] at hread
  have hruns := @data_runs_iff codec.pool codec.env user_temp (passage codec payload) names hpool
    hexact (by simp [passage]) htemperatures env other rfl impl.message_cls raw sent.data
    (hcodec.parsed impl himpl data raw hparse) hread sent block rfl hblock
    fun hsequence => hcodec.sequence impl himpl (htype.symm.trans hsequence)
  have hencodes : (∃ numbered, restoredData other writer block = .ok numbered ∧ Encodes codec
      { id := block.id, nid := sent.nid, type := block.type, data := numbered }) ↔
      ∃ numbered obj, restoredData other writer block = .ok numbered ∧
        walkItems codec.pool (encodeElement codec.env (converter user_temp) codec.filter_values)
          (some impl.message_cls) [] numbered numbered [] = .ok obj := by
    refine exists_congr fun numbered => ?_
    rw [object_encodes_iff hcodec hfind htype, hunits, exists_and_left]
  refine hencodes.trans ((restored_runs_iff
    (e := (passage codec payload).encoder codec.env (converter user_temp) codec.pool writer)).trans
      (hruns.trans ⟨fun ⟨hshown, hlines⟩ => ?_, fun h => ?_⟩))
  · exact .object hfind htype hbytes hparse hshown hlines
  · cases h with
    | deprecated hdeprecated =>
      exact absurd hdeprecated (not_deprecated hcodec (mem_combined hfind) htype)
    | object hfind' _ hbytes' hparse' hshown hlines =>
      cases hfind.symm.trans hfind'
      cases hbytes.symm.trans hbytes'
      cases hparse.symm.trans hparse'
      exact ⟨hshown, hlines⟩

/-- A block that was decoded, and is shown by the names of one store, is restored by those of
another exactly where it is restorable. -/
theorem block_restored_iff (hunits : codec.units = converter user_temp)
    (hexact : Exact codec.env user_temp) (hpool : Schema codec.pool)
    (htemperatures : ConvertsTemperatures codec.env.quantity)
    (hnumbers : ∀ name, w.block_store.get? name ≠ some none)
    (hsent : command._to_block codec payload .STORED = .ok sent)
    (hblock : ShownBlock env reader sent block) :
    (∃ restored, outcome other w block = .ok restored ∧ Encodes codec restored) ↔
      Restorable codec other.timeparse reader w.block_store payload block := by
  rw [outcome_encodes_iff hblock.nid]
  cases decoded_of_to_block hsent with
  | stub htype =>
    rw [← hblock.type] at htype
    obtain ⟨hencodes, hnot⟩ := stub_is_not_restored hcodec htype
    exact iff_of_false (fun ⟨_, _, h⟩ => hencodes _ _ h) hnot
  | deprecated hvalue htype hdata =>
    exact deprecated_restored_iff hcodec hvalue htype hdata hblock
  | object hfind htype hbytes hparse hread =>
    exact object_restored_iff hcodec hunits hexact hpool htemperatures hnumbers hfind htype hbytes
      hparse hread hblock
  | interface hnone hfind htype =>
    rw [← hblock.type] at htype
    obtain ⟨hencodes, hnot⟩ := interface_is_not_restored hcodec hnone hfind htype
    exact iff_of_false (fun ⟨_, _, h⟩ => hencodes _ _ h) hnot

end

end devcon_spark.spark_api
