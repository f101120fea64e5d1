-- A backup of one controller, applied to another one: if all of its blocks are
-- accepted, the other has the blocks of users that the first one had.
import DevconSpark.BackupLaws
import DevconSpark.MockedLaws

open mirrors programs devcon_spark.exceptions devcon_spark.models

namespace devcon_spark.spark_api

/-! ## What a block is shown as -/

/-- A block of the API has the number of the block of the firmware, and its name if that has
one. -/
structure Shows (b : FirmwareBlock) (block : Block) : Prop where
  nid : block.nid = some b.nid
  id : named b.id → block.id = b.id

theorem to_identity_shows (env : Environment) (b : FirmwareBlock) (w : World) :
    Ends (_to_block_identity env b) w fun r _ => ∀ ident, r = .ok ident →
      ident.nid = some b.nid ∧ (named b.id → ident.id = b.id) := by
  have hid : ∀ (id : Option String) w, (named b.id → id = b.id) →
      Ends (pure id >>= fun id => (pure { id, nid := some b.nid, type := some b.type
                                          serviceId := some env.name } : Api BlockIdentity)) w
        fun r _ => ∀ ident, r = .ok ident → ident.nid = some b.nid ∧
          (named b.id → ident.id = b.id) := by
    rintro id w hid ident ⟨⟩
    exact ⟨rfl, hid⟩
  unfold _to_block_identity
  refine ends_bind (P := fun _ _ => True) trivial (fun _ w' _ => ends_get ?_) ?_
  · dsimp only
    split
    · exact hid _ _ fun _ => rfl
    · rename_i hunnamed
      split
      · exact hid _ _ fun hnamed => absurd hnamed hunnamed
      · exact hid _ _ fun hnamed => absurd hnamed hunnamed
      · rintro ident ⟨⟩
  · rintro ex w' - ident ⟨⟩

theorem to_block_shows (env : Environment) (b : FirmwareBlock) (w : World) :
    Ends (_to_block env b) w fun r _ => ∀ block, r = .ok block → Shows b block := by
  unfold _to_block
  refine ends_bind (P := fun _ _ => True) trivial (fun _ w' _ => ?_) ?_
  · refine ends_bind (to_identity_shows env b w') (fun ident w'' hident => ends_get ?_) ?_
    · have hblock : ∀ (data : py_value.Dict) w, Ends (pure
          { id := ident.id, nid := ident.nid, type := b.type, serviceId := ident.serviceId, data } :
            Api Block) w fun r _ => ∀ block, r = .ok block → Shows b block := by
        rintro data w block ⟨⟩
        exact ⟨(hident ident rfl).1, (hident ident rfl).2⟩
      refine ends_lift (fun data _ => ?_) ?_
      · dsimp only
        split
        · refine ends_lift (fun data _ => hblock data _) ?_
          rintro ex - block ⟨⟩
        · exact hblock data _
      · rintro ex - block ⟨⟩
    · rintro ex w'' - block ⟨⟩
  · rintro ex w' - block ⟨⟩

/-! ## A backup, and the blocks of users -/

/-- The blocks are those that the controller has, each once, under their names. -/
structure Saves (D : Directory) (blocks : List Block) : Prop where
  known : ∀ block ∈ blocks, ∃ nid id, block.nid = some nid ∧ D (some nid) = some id ∧
    (named id → block.id = id)
  complete : ∀ nid, (D (some nid)).isSome → ∃ block ∈ blocks, block.nid = some nid
  distinct : (blocks.map Block.nid).Nodup

theorem Saves.named {D : Directory} {blocks : List Block} (h : Saves D blocks) {nid : Int}
    {id : Option String} (hD : D (some nid) = some id) :
    ∃ block ∈ blocks, block.nid = some nid ∧ (named id → block.id = id) := by
  obtain ⟨block, hblock, hnid⟩ := h.complete nid (by rw [hD]; rfl)
  obtain ⟨nid', id', hnid', hD', hid⟩ := h.known block hblock
  obtain rfl := Option.some.inj (hnid.symm.trans hnid')
  obtain rfl := Option.some.inj (hD.symm.trans hD')
  exact ⟨block, hblock, hnid, hid⟩

theorem saves_of_shows {D : Directory} {bs : List FirmwareBlock} {blocks : List Block}
    (hshows : List.Forall₂ Shows bs blocks) (hknown : ∀ b ∈ bs, Known D b)
    (hall : ∀ v id, D v = some id → ∃ b ∈ bs, some b.nid = v ∧ b.id = id)
    (hdistinct : (bs.map FirmwareBlock.nid).Nodup) : Saves D blocks where
  known block hblock := by
    obtain ⟨b, hb, hshown⟩ := forall₂_right hshows hblock
    exact ⟨b.nid, b.id, hshown.nid, hknown b hb, hshown.id⟩
  complete nid hsome := by
    obtain ⟨id, hD⟩ := Option.isSome_iff_exists.mp hsome
    obtain ⟨b, hb, hnid, -⟩ := hall (some nid) id hD
    obtain ⟨block, hblock, hshown⟩ := forall₂_left hshows hb
    exact ⟨block, hblock, hshown.nid.trans hnid⟩
  distinct := by
    have hnids : bs.map (some ∘ FirmwareBlock.nid) = blocks.map Block.nid :=
      map_eq_of_forall₂ (hshows.imp fun _ _ h => h.nid.symm)
    rw [← hnids, ← List.map_map]
    exact hdistinct.map (Option.some_injective Int)

/-- The controller has a block of users for each that was sent to it, under its name, and no
others. -/
structure Received (D : Directory) (sent : List FirmwareBlock) : Prop where
  only : ∀ nid, USER_NID_START ≤ nid → (D (some nid)).isSome → ∃ b ∈ sent, b.nid = nid
  each : ∀ b ∈ sent, USER_NID_START ≤ b.nid →
    ∃ id, D (some b.nid) = some id ∧ (named b.id → id = b.id)

variable {D : Directory} {sent : List FirmwareBlock} {block : FirmwareBlock}

theorem received_nil (h : ∀ nid, USER_NID_START ≤ nid → D (some nid) = none) : Received D [] where
  only nid huser hsome := by
    rw [h nid huser] at hsome
    cases hsome
  each := by simp

theorem Received.create {new : FirmwareBlock} (h : Received D sent)
    (huser : USER_NID_START ≤ block.nid) (hnew : New D new)
    (hnid : block.nid ≠ 0 → new.nid = block.nid) (hid : named block.id → new.id = block.id) :
    Received (Function.update D (some new.nid) (some new.id)) (sent ++ [block]) := by
  have hsame : new.nid = block.nid := hnid fun hzero => by
    rw [hzero] at huser
    exact absurd huser (by decide)
  have hfree := hnew.free
  rw [hsame] at hfree ⊢
  constructor
  · intro nid hnid hsome
    by_cases hblock : nid = block.nid
    · exact ⟨block, by simp, hblock.symm⟩
    · rw [Function.update_of_ne fun heq => hblock (Option.some.inj heq)] at hsome
      obtain ⟨b, hb, hnid⟩ := h.only nid hnid hsome
      exact ⟨b, List.mem_append_left _ hb, hnid⟩
  · intro b hb hb_user
    rcases List.mem_append.mp hb with hb | hb
    · obtain ⟨id, hD, hname⟩ := h.each b hb hb_user
      refine ⟨id, ?_, hname⟩
      -- its number was not free
      rw [Function.update_of_ne, hD]
      intro heq
      rw [heq, hfree] at hD
      cases hD
    · obtain rfl := List.mem_singleton.mp hb
      exact ⟨new.id, Function.update_self _ _ _, hid⟩

theorem Received.write (h : Received D sent) (hsystem : ¬ USER_NID_START ≤ block.nid) :
    Received D (sent ++ [block]) where
  only nid huser hsome := by
    obtain ⟨b, hb, hnid⟩ := h.only nid huser hsome
    exact ⟨b, List.mem_append_left _ hb, hnid⟩
  each b hb huser := by
    rcases List.mem_append.mp hb with hb | hb
    · exact h.each b hb huser
    · obtain rfl := List.mem_singleton.mp hb
      exact absurd huser hsystem

/-- The other controller has the same blocks of users, and what has a name there has it still. -/
structure Restored (D D' : Directory) : Prop where
  present : ∀ nid, USER_NID_START ≤ nid → ((D' (some nid)).isSome ↔ (D (some nid)).isSome)
  names : ∀ nid id, USER_NID_START ≤ nid → D (some nid) = some id → named id →
    D' (some nid) = some id

theorem restored_of_received {D' : Directory} {blocks : List Block} (hsaves : Saves D blocks)
    (hsent : List.Forall₂ Resolves blocks sent) (h : Received D' sent) : Restored D D' := by
  have heach : ∀ nid id, USER_NID_START ≤ nid → D (some nid) = some id →
      ∃ id', D' (some nid) = some id' ∧ (named id → id' = id) := by
    intro nid id huser hD
    obtain ⟨block, hblock, hnid, hid⟩ := hsaves.named hD
    obtain ⟨b, hb, hresolves⟩ := forall₂_left hsent hblock
    obtain rfl := hresolves.nid nid hnid
    obtain ⟨id', hD', hname⟩ := h.each b hb huser
    refine ⟨id', hD', fun hnamed => ?_⟩
    have hsame : b.id = id := hresolves.id.trans (hid hnamed)
    rw [hname (by rwa [hsame]), hsame]
  constructor
  · intro nid huser
    constructor
    · intro hsome
      obtain ⟨b, hb, rfl⟩ := h.only nid huser hsome
      obtain ⟨block, hblock, hresolves⟩ := forall₂_right hsent hb
      obtain ⟨nid, id, hnid, hD, -⟩ := hsaves.known block hblock
      rw [hresolves.nid nid hnid, hD]
      rfl
    · intro hsome
      obtain ⟨id, hD⟩ := Option.isSome_iff_exists.mp hsome
      obtain ⟨id', hD', -⟩ := heach nid id huser hD
      rw [hD']
      rfl
  · intro nid id huser hD hnamed
    obtain ⟨id', hD', hname⟩ := heach nid id huser hD
    rw [hD', hname hnamed]

/-! ## What becomes of the names -/

namespace Keeper

variable {σ : Type} {K : Keeper σ} {base : Environment} {s : σ} {α β : Type}
  {N : Directory → Prop} {M P : α → Directory → Prop} {Q : β → Directory → Prop} {x : Api α}

/-- A condition on the names that the controller has. -/
def Says (K : Keeper σ) (N : Directory → Prop) (t : σ) (_ : BlockStore) : Prop := N (K.names t)

/-- What holds of the names if a program does not raise. -/
def gave (K : Keeper σ) (P : α → Directory → Prop) : Except Exn α → σ → BlockStore → Prop
  | .ok a => Says K (P a)
  | .error _ => fun _ _ => True

/-- What a program that does not raise gives, and the names that it leaves. -/
def Gives (K : Keeper σ) (s : σ) (N : Directory → Prop) (x : Api α)
    (P : α → Directory → Prop) : Prop :=
  Triple (K.Holds s (Says K N)) x fun r => K.Holds s (gave K P r)

theorem gives_bind {f : α → Api β} (hx : Gives K s N x M) (hf : ∀ a, Gives K s (M a) (f a) Q) :
    Gives K s N (x >>= f) Q :=
  triple_bind hx hf fun _ _ hw => hw

theorem gives_pure {a : α} (h : ∀ D, N D → P a D) : Gives K s N (pure a) P :=
  triple_pure fun _ hw => hw.imp fun _ _ _ hN => h _ hN

theorem gives_throw (ex : Exn) : Gives K s N (throw ex) P :=
  triple_throw fun _ hw => hw.imp fun _ _ _ _ => trivial

/-- A part that goes on with what it reads of the world. -/
theorem gives_get {f : World → Api α} (h : ∀ w₀, Gives K s N (f w₀) P) :
    Gives K s N (get >>= f) P :=
  fun w hw => ends_get (h w w hw)

theorem gives_execute (h : Gives K s N x P) :
    Gives K s N (_execute (K.environment base s) x) P :=
  triple_execute h fun _ _ _ _ _ => trivial

theorem gives_cmder (request : Request) {P : request.Reply → Directory → Prop}
    (h : ∀ D reply D', N D → Confirmed D request reply D' → P reply D') :
    Gives K s N (cmder (K.environment base s) request) P :=
  triple_cmder request (fun _ _ _ _ hN _ _ hconfirmed => h _ _ _ hN hconfirmed)
    fun _ _ _ _ _ _ _ _ => trivial

theorem gives_same (request : Request)
    (hsame : ∀ D reply D', Confirmed D request reply D' → D' = D) :
    Gives K s N (cmder (K.environment base s) request) fun _ => N := by
  refine gives_cmder request fun D reply D' hN hconfirmed => ?_
  rw [hsame D reply D' hconfirmed]
  exact hN

/-- A part that sends no request changes no name. -/
theorem says_silent {w : World} (hsilent : ∀ requests, Keeps (fun w => w.requests = requests) x)
    (hw : K.Holds s (Says K N) w) : K.Holds s (Says K N) (x.run.run w).2 := by
  have hat : K.after s (x.run.run w).2 = K.after s w :=
    congrArg (List.foldl K.next s) (hsilent w.requests w rfl)
  intro horderly
  rw [hat] at horderly ⊢
  exact hw horderly

theorem gives_silent {R : α → Prop} {f : α → Api β}
    (hsilent : ∀ requests, Keeps (fun w => w.requests = requests) x)
    (hx : ∀ w, Ends x w fun r _ => ∀ a, r = .ok a → R a)
    (hf : ∀ a, R a → Gives K s N (f a) Q) : Gives K s N (x >>= f) Q := by
  intro w hw
  have hends : Ends x w fun r w' => (∀ a, r = .ok a → R a) ∧ K.Holds s (Says K N) w' :=
    ⟨hx w, says_silent hsilent hw⟩
  exact ends_bind hends (fun a w' h => hf a (h.1 a rfl) w' h.2)
    fun _ _ h => h.2.imp fun _ _ _ _ => trivial

theorem gives_modifyStore (f : BlockStore → BlockStore) :
    Gives K s N (modifyStore f) fun _ => N :=
  fun _ hw => hw

theorem gives_load_block_names :
    Gives K s N (load_block_names (K.environment base s)) fun _ => N := by
  refine gives_bind (M := fun _ => N) (gives_same _ ?_) fun blocks => gives_modifyStore _
  intro D reply D' hconfirmed
  cases hconfirmed
  rfl

theorem silent_sync (b : FirmwareBlock) (requests : List Request) :
    Keeps (fun w => w.requests = requests) (_sync_block_id b.id b.nid) := by
  unfold _sync_block_id
  split
  · exact triple_modify fun _ hw => hw
  · exact keeps_pure ()

/-! ## Saving -/

/-- All blocks are read, or none. -/
theorem says_readAll (mode : ReadMode) :
    Triple (K.Holds s (Says K N)) (readAll (K.environment base s) mode) fun r =>
      K.Holds s (Says K fun D => N D ∧ ∀ blocks, r = .ok blocks → Saves D blocks) := by
  refine triple_execute (P := fun r => Says K fun D => N D ∧ ∀ blocks, r = .ok blocks →
    Saves D blocks) ?_ fun ex _ _ _ hN => ⟨hN, by rintro blocks ⟨⟩⟩
  have hread : Triple (K.Holds s (Says K N))
      (cmder (K.environment base s) (.read_all_blocks mode)) fun r => K.Holds s (Says K fun D =>
        N D ∧ ∀ bs : List FirmwareBlock, r = .ok bs →
          ∀ blocks, List.Forall₂ Shows bs blocks → Saves D blocks) := by
    refine triple_cmder _ (fun t store bs _ hN _ _ hconfirmed => ?_)
      fun t store ex _ hN _ _ hnames => ?_
    · unfold Says
      generalize K.names (K.next t (.read_all_blocks mode)) = D' at hconfirmed
      cases hconfirmed with
      | readAll hknown hall hdistinct =>
        refine ⟨hN, ?_⟩
        rintro bs' ⟨⟩ blocks hshows
        exact saves_of_shows hshows hknown hall hdistinct
    · unfold Says
      rw [hnames]
      refine ⟨hN, ?_⟩
      rintro bs ⟨⟩
  refine triple_bind hread (fun bs w hw => ?_) fun ex w hw => hw.imp fun _ _ _ h => ⟨h.1, ?_⟩
  · have hshown := ends_mapM (to_block_shows (K.environment base s)) bs w
    refine (says_silent (fun requests => keeps_mapM fun b _ =>
      triple_block (silent_sync b requests) (silent_sync b requests)) hw).imp fun _ _ _ h => ?_
    exact ⟨h.1, fun blocks hblocks => h.2 bs rfl blocks (hshown blocks hblocks)⟩
  · rintro blocks ⟨⟩

/-- The blocks of a backup are those of the controller. -/
theorem gives_make_backup (D₀ : Directory) :
    Gives K s (· = D₀) (make_backup (K.environment base s))
      fun exported _ => Saves D₀ exported.blocks := by
  unfold make_backup
  refine triple_bind (says_readAll .STORED) (fun blocks => ?_)
    fun _ _ hw => hw.imp fun _ _ _ _ => trivial
  refine gives_get fun w₀ => ?_
  split
  · exact gives_throw _
  · refine gives_pure fun D h => ?_
    rw [← h.1]
    exact h.2 blocks rfl

/-! ## Restoring -/

/-- Whatever there was, no block of users is left. -/
theorem gives_clear_blocks : Gives K s (fun _ => True) (clear_blocks (K.environment base s))
    fun _ D => Received D [] := by
  have hclear : Gives K s (fun _ => True) (cmder (K.environment base s) .clear_blocks)
      fun _ D => Received D [] := by
    refine gives_cmder _ fun D blocks D' _ hconfirmed => ?_
    cases hconfirmed with
    | clear hcleared => exact received_nil hcleared
  refine gives_execute (gives_bind hclear fun blocks => ?_)
  refine gives_silent (R := fun _ => True) (fun requests => keeps_mapM fun b _ =>
    keeps_identity (silent_sync b requests)) (fun _ _ _ => trivial) fun _ _ => ?_
  refine gives_bind (M := fun _ D => Received D []) gives_load_block_names fun _ => ?_
  refine gives_bind (M := fun _ D => Received D []) (gives_same _ ?_)
    fun _ => gives_pure fun _ h => h
  intro D reply D' hconfirmed
  cases hconfirmed
  rfl

theorem importBlocks_cons (env : Environment) (block : FirmwareBlock)
    (blocks : List FirmwareBlock) : importBlocks env (block :: blocks) =
      (tryCatch (importBlock env block >>= fun _ => pure none) fun ex => pure (some
        s!"failed to import block. Error={strex ex}, block={env.firmwareBlockText block}")) >>=
          fun error => importBlocks env blocks >>= fun errors =>
            pure (error.toList ++ errors) := by
  by_cases h : block.nid ≥ USER_NID_START
  · rw [importBlock_user h]
    simp only [importBlocks, if_pos h]
    rfl
  · rw [importBlock_system h]
    simp only [importBlocks, if_neg h]
    rfl

theorem gives_importBlock (block : FirmwareBlock) (sent : List FirmwareBlock) (accepted : Prop) :
    Gives K s (fun D => accepted → Received D sent) (importBlock (K.environment base s) block)
      fun _ D => accepted → Received D (sent ++ [block]) := by
  by_cases huser : USER_NID_START ≤ block.nid
  · rw [importBlock_user huser]
    refine gives_cmder _ fun D reply D' h hconfirmed haccepted => ?_
    cases hconfirmed with
    | create hnew hnid hid => exact (h haccepted).create huser hnew hnid hid
  · rw [importBlock_system huser]
    refine gives_cmder _ fun D reply D' h hconfirmed haccepted => ?_
    cases hconfirmed with
    | write => exact (h haccepted).write huser

/-- All blocks were received, if none of them was refused. -/
theorem gives_importBlocks (blocks sent : List FirmwareBlock) (accepted : Prop) :
    Gives K s (fun D => accepted → Received D sent) (importBlocks (K.environment base s) blocks)
      fun errors D => accepted → errors = [] → Received D (sent ++ blocks) := by
  induction blocks generalizing sent accepted with
  | nil =>
    refine gives_pure fun D h haccepted _ => ?_
    rw [List.append_nil]
    exact h haccepted
  | cons block blocks ih =>
    rw [importBlocks_cons]
    refine gives_bind (M := fun error D => accepted ∧ error = none → Received D (sent ++ [block]))
      (triple_catch (gives_bind (gives_importBlock block sent accepted) fun _ => ?_)
        (fun _ _ hw => hw) fun ex => ?_) fun error => ?_
    · exact gives_pure fun D h haccepted => h haccepted.1
    · -- the message says that the block was refused
      refine triple_pure fun _ hw => hw.imp fun _ _ _ _ haccepted => ?_
      cases haccepted.2
    · refine gives_bind (ih (sent ++ [block]) (accepted ∧ error = none)) fun errors => ?_
      refine gives_pure fun D h haccepted hnone => ?_
      rw [List.append_assoc, List.singleton_append] at h
      cases error with
      | none => exact h ⟨haccepted, rfl⟩ hnone
      | some message => cases hnone

theorem resolves_all {env : Environment} {w : World} {blocks : List Block}
    (h : blocks.filterMap (unresolvedMessage env w) = []) :
    List.Forall₂ Resolves blocks (resolvedBlocks env w blocks) := by
  induction blocks with
  | nil => exact .nil
  | cons block blocks ih =>
    have hall := List.filterMap_eq_nil_iff.mp h
    cases houtcome : outcome env w block with
    | error ex =>
      have hmessage := hall block List.mem_cons_self
      unfold unresolvedMessage at hmessage
      rw [houtcome] at hmessage
      cases hmessage
    | ok b =>
      have hresolved : resolvedBlocks env w (block :: blocks) = b :: resolvedBlocks env w blocks :=
        List.filterMap_cons_some (by rw [houtcome]; rfl)
      rw [hresolved]
      refine .cons (firmware_block_resolves env block w b houtcome) (ih ?_)
      exact List.filterMap_eq_nil_iff.mpr fun other hother =>
        hall other (List.mem_cons_of_mem _ hother)

/-- Without a message, every block of the backup was resolved, and received. -/
theorem gives_apply_backup (exported : Backup) :
    Gives K s (fun _ => True) (apply_backup (K.environment base s) exported) fun applied D =>
      applied.messages = [] →
        ∃ sent, List.Forall₂ Resolves exported.blocks sent ∧ Received D sent := by
  unfold apply_backup
  refine gives_bind gives_clear_blocks fun _ => ?_
  refine gives_bind (gives_modifyStore _) fun _ => gives_bind (gives_modifyStore _) fun _ => ?_
  refine gives_silent (R := fun resolved => resolved.2 = [] →
    List.Forall₂ Resolves exported.blocks resolved.1) ?_ ?_ fun resolved hresolved => ?_
  · intro requests w hw
    unfold Ends
    rw [resolveBlocks_run]
    exact hw
  · intro w
    unfold Ends
    rw [resolveBlocks_run]
    rintro resolved ⟨⟩
    exact resolves_all
  obtain ⟨resolved_blocks, unresolved⟩ := resolved
  have himported := @gives_importBlocks σ K base s resolved_blocks [] True
  rw [List.nil_append] at himported
  refine triple_weaken (gives_bind himported fun failed => ?_)
    (fun _ hw => hw.imp fun _ _ _ h _ => h) fun _ _ hw => hw
  refine gives_bind (gives_same .discover_blocks ?_) fun _ => ?_
  · intro D reply D' hconfirmed
    cases hconfirmed
    rfl
  refine gives_bind gives_load_block_names fun _ => gives_pure fun D h hnone => ?_
  obtain ⟨hunresolved, hfailed⟩ := List.append_eq_nil_iff.mp hnone
  exact ⟨resolved_blocks, hresolved hunresolved, h trivial hfailed⟩

/-! ## The names, once they are loaded again -/

/-- The store mirrors the names if a program does not raise. -/
def reloaded (K : Keeper σ) : Except Exn α → σ → BlockStore → Prop
  | .ok _ => K.Mirrored
  | .error _ => fun _ _ => True

theorem load_block_names_reloads :
    Triple (K.Holds s (Says K N)) (load_block_names (K.environment base s))
      fun r => K.Holds s (reloaded K r) := by
  have hasked : Gives K s N (cmder (K.environment base s) .read_all_block_names)
      fun blocks D => Confirmed D .read_all_block_names blocks D := by
    refine gives_cmder _ fun D blocks D' _ hconfirmed => ?_
    cases hconfirmed with
    | names hknown hall => exact .names hknown hall
  unfold load_block_names
  refine triple_bind hasked (fun blocks => ?_) fun _ _ hw => hw.imp fun _ _ _ _ => trivial
  refine triple_modifyStore (P := reloaded K) fun t store hsound hloaded => ?_
  exact mirrors_of_names (K.distinct t hsound) hloaded

/-- Whatever was in the store, a backup that was applied leaves the names of the controller. -/
theorem apply_backup_reloads (exported : Backup) :
    Triple (K.Holds s (Says K fun _ => True)) (apply_backup (K.environment base s) exported)
      fun r => K.Holds s (reloaded K r) := by
  have hthen : ∀ {α β : Type} {x : Api α} {f : α → Api β} {M : α → Directory → Prop},
      Gives K s (fun _ => True) x M →
      (∀ a, Triple (K.Holds s (Says K fun _ => True)) (f a) fun r => K.Holds s (reloaded K r)) →
      Triple (K.Holds s (Says K fun _ => True)) (x >>= f) fun r => K.Holds s (reloaded K r) :=
    fun hx hf => triple_bind hx (fun a w hw => hf a w (hw.imp fun _ _ _ _ => trivial))
      fun _ _ hw => hw.imp fun _ _ _ _ => trivial
  unfold apply_backup
  refine hthen gives_clear_blocks fun _ => hthen (gives_modifyStore _) fun _ => ?_
  refine hthen (gives_modifyStore _) fun _ => ?_
  refine hthen (M := fun _ _ => True) (fun w hw => ?_) fun resolved => ?_
  · unfold Ends
    rw [resolveBlocks_run]
    exact hw
  refine hthen (M := fun _ _ => True) (triple_weaken (gives_importBlocks resolved.1 [] False)
    (fun _ hw => hw.imp fun _ _ _ _ h => h.elim) fun r _ hw => hw.imp fun _ _ _ _ => ?_)
    fun failed => ?_
  · cases r <;> trivial
  refine hthen (gives_same .discover_blocks ?_) fun _ => ?_
  · intro D reply D' hconfirmed
    cases hconfirmed
    rfl
  refine triple_bind load_block_names_reloads (fun _ => ?_) fun _ _ hw => hw
  exact triple_pure fun _ hw => hw

end Keeper

end devcon_spark.spark_api

namespace devcon_spark.mocked

open devcon_spark.spark_api (Keeper Restored USER_NID_START)
open devcon_spark.connection.mock_connection

variable {Msg Msg' : Type} {setup : Setup Msg} {setup' : Setup Msg'}

/-- If the backup of a service is applied to another one without a message, then the other
controller has the same blocks of users, under the same names, and its service knows them. -/
theorem applied_backup_restores_the_blocks {service : Service Msg} {other : Service Msg'}
    {exported : Backup} (hwire : setup.wire.Faithful) (hwire' : setup'.wire.Faithful)
    (hs : SoundConn service.controller.conn) (hs' : SoundConn other.controller.conn)
    (hmade : result setup service spark_api.make_backup = .ok exported)
    (horderly : orderly setup (performed setup service spark_api.make_backup).controller)
    (happlied : result setup' other (spark_api.apply_backup · exported) = .ok { messages := [] })
    (horderly' : orderly setup'
      (performed setup' other (spark_api.apply_backup · exported)).controller) :
    let other' := performed setup' other (spark_api.apply_backup · exported)
    Restored (names service.controller) (names other'.controller) ∧
      ∀ nid id, USER_NID_START ≤ nid → names service.controller (some nid) = some id →
        spark_api.named id → other'.world.block_store.get? id = some (some nid) := by
  intro other'
  obtain ⟨-, hsaved⟩ := performed_right hwire spark_api.make_backup
    (Keeper.gives_make_backup (K := keeper setup hwire) (names service.controller)) hs rfl horderly
  rw [hmade] at hsaved
  obtain ⟨-, hreceived⟩ := performed_right hwire' (spark_api.apply_backup · exported)
    (Keeper.gives_apply_backup (K := keeper setup' hwire') exported) hs' trivial horderly'
  rw [happlied] at hreceived
  obtain ⟨sent, hresolves, hreceived⟩ := hreceived rfl
  have hrestored : Restored (names service.controller) (names other'.controller) :=
    spark_api.restored_of_received hsaved hresolves hreceived
  obtain ⟨-, hmirrored⟩ := performed_right hwire' (spark_api.apply_backup · exported)
    (Keeper.apply_backup_reloads (K := keeper setup' hwire') exported) hs' trivial horderly'
  rw [happlied] at hmirrored
  refine ⟨hrestored, fun nid id huser hD hnamed => ?_⟩
  exact (hmirrored id (some nid) hnamed).mpr (hrestored.names nid id huser hD hnamed)

def loadedService : Service Envelope := step kettles startedService .loaded

def kettleService : Service Envelope :=
  step kettles loadedService
    (.operated (.create_block { id := some "kettle", type := "Variables", data := [] }))

def kettleBackup : Backup :=
  (result kettles kettleService spark_api.make_backup).toOption.getD { blocks := [] }

theorem loadedService_linked : Linked loadedService := by
  have hsound : SoundConn startedService.controller.conn :=
    ⟨⟨sound_default, le_rfl⟩, by simp [startedService]⟩
  refine loaded_linked envelopes_faithful hsound rfl ⟨by simp, by simp, orderly_of_created ?_ ?_⟩
  · decide +kernel
  · decide +kernel

theorem kettleService_linked : Linked kettleService := by
  refine step_linked envelopes_faithful loadedService_linked
    ⟨by simp, by simp, orderly_of_created ?_ ?_⟩
  · decide +kernel
  · decide +kernel

theorem kettle_is_restored :
    let restored := performed kettles loadedService (spark_api.apply_backup · kettleBackup)
    Restored (names kettleService.controller) (names restored.controller) ∧
      ∀ nid id, USER_NID_START ≤ nid → names kettleService.controller (some nid) = some id →
        spark_api.named id → restored.world.block_store.get? id = some (some nid) := by
  have hmade : result kettles kettleService spark_api.make_backup = .ok kettleBackup := by
    have hok : (result kettles kettleService spark_api.make_backup).isOk = true := by
      decide +kernel
    unfold kettleBackup
    generalize result kettles kettleService spark_api.make_backup = r at hok
    cases r with
    | ok exported => rfl
    | error ex => cases hok
  refine applied_backup_restores_the_blocks envelopes_faithful envelopes_faithful
    kettleService_linked.conn loadedService_linked.conn hmade (orderly_of_created ?_ ?_) ?_
    (orderly_of_created ?_ ?_)
  · decide +kernel
  · decide +kernel
  · decide +kernel
  · decide +kernel
  · decide +kernel

end devcon_spark.mocked
