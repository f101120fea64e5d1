-- What the broadcaster publishes is what the controller has: all of its blocks
-- or none, whatever fails on the way.
import DevconSpark.Broadcast
import DevconSpark.Restores

open mirrors programs runs devcon_spark.exceptions devcon_spark.models
open devcon_spark.spark_api (Api Directory Environment Keeper Saves World)
open devcon_spark.spark_api.Keeper (Says says_readAll)
open devcon_spark.state_machine (StatusDescription)

namespace devcon_spark.broadcast

/-! ## What is told of a controller -/

/-- What was read of a controller: nothing, or its blocks, and then perhaps what they log. -/
inductive Reading (D : Directory) : List Block → Option (List Block) → Prop
  | nothing : Reading D [] none
  | blocks {blocks : List Block} (h : Saves D blocks) : Reading D blocks none
  | logged {blocks logged_blocks : List Block} (h : Saves D blocks) (hl : Saves D logged_blocks) :
      Reading D blocks (some logged_blocks)

variable (topics : Topics) (env : Environment)

/-- The history, if it was read, and the state, if relations and claims can be calculated. -/
def messages (status : StatusDescription) (blocks : List Block) (logged : Option (List Block)) :
    List Message :=
  (logged.map (historyMessage topics env)).toList ++
    (stateMessage topics env status blocks).toOption.toList

variable {topics} {env}

/-- A call of the API has nothing to do with what was read and published before. -/
theorem triple_api {α : Type} {x : Api α} {C : World → Prop} {P : Except Exn α → World → Prop}
    (h : Triple C x P) (F : List Block → List Message → Prop) :
    Triple (fun b => C b.toWorld ∧ F b.blocks b.published) (api x)
      fun r b => P r b.toWorld ∧ F b.blocks b.published :=
  fun b hb => ⟨h b.toWorld hb.1, hb.2⟩

section

variable {σ : Type} {K : Keeper σ} {base : Environment} {s : σ} {D : Directory}
  {published : List Message} {synchronized : Bool}

/-- After the part that may fail, from what was published before. -/
def HasRead (K : Keeper σ) (topics : Topics) (env : Environment) (s : σ) (D : Directory)
    (published : List Message) (synchronized : Bool) (r : Except Exn Unit) (b : Broadcaster) :
    Prop :=
  K.Holds s (fun _ _ => ∃ logged, Reading D b.blocks logged ∧
    b.published = published ++ (logged.map (historyMessage topics env)).toList ∧
    (r = .ok () → synchronized → logged.isSome)) b.toWorld

/-- After the broadcast. -/
def HasTold (K : Keeper σ) (topics : Topics) (env : Environment) (s : σ) (D : Directory)
    (published : List Message) (synchronized : Bool) (r : Except Exn Unit) (b : Broadcaster) :
    Prop :=
  K.Holds s (fun _ _ => ∃ blocks logged, Reading D blocks logged ∧
    b.published = published ++ messages topics env b.state.status_desc blocks logged ∧
    (r = .ok () → synchronized → logged.isSome)) b.toWorld

/-- Nothing was read of what the controller logs. -/
theorem hasRead_none {A : σ → BlockStore → Prop} {r : Except Exn Unit} {b : Broadcaster}
    (hread : K.Holds s A b.toWorld) (hreading : ∀ t store, A t store → Reading D b.blocks none)
    (hpublished : b.published = published) (hr : r = .ok () → ¬ synchronized) :
    HasRead K topics env s D published synchronized r b := by
  refine hread.imp fun t store _ hA => ⟨none, hreading t store hA, ?_, fun hok h => ?_⟩
  · rw [hpublished]
    exact (List.append_nil _).symm
  · exact absurd h (hr hok)

theorem triple_publishBlocks : Triple (fun b => K.Holds s (Says K (· = D)) b.toWorld ∧
      b.blocks = [] ∧ b.published = published ∧ b.state.synchronized_ev = synchronized)
    (publishBlocks topics (K.environment base s))
    (HasRead K topics (K.environment base s) s D published synchronized) := by
  unfold publishBlocks
  refine triple_get fun b₀ => ?_
  split
  case isTrue =>
    refine triple_weaken (A := fun b => K.Holds s (Says K (· = D)) b.toWorld ∧ b.blocks = [] ∧
      b.published = published) ?_ (fun _ h => ⟨h.1.1, h.1.2.1, h.1.2.2.1⟩) fun _ _ h => h
    refine triple_bind (triple_api (says_readAll .DEFAULT) fun bs ms => bs = [] ∧ ms = published)
      (fun blocks => ?_) ?_
    · refine triple_modify_bind (B := fun b => K.Holds s (Says K fun D' => D' = D ∧
        Saves D blocks) b.toWorld ∧ b.blocks = blocks ∧ b.published = published) ?_ ?_
      · rintro b ⟨hread, -, hpublished⟩
        refine ⟨hread.imp fun t _ _ hN => ⟨hN.1, ?_⟩, rfl, hpublished⟩
        rw [← hN.1]
        exact hN.2 blocks rfl
      · refine triple_bind (triple_api (says_readAll .LOGGED) fun bs ms =>
          bs = blocks ∧ ms = published) (fun logged_blocks => triple_modify ?_) ?_
        · rintro b ⟨hread, rfl, rfl⟩
          refine hread.imp fun t _ _ hN => ⟨some logged_blocks, ?_, rfl, fun _ _ => rfl⟩
          have hlogged := hN.2 logged_blocks rfl
          rw [hN.1.1] at hlogged
          exact .logged hN.1.2 hlogged
        · rintro ex b ⟨hread, rfl, hpublished⟩
          exact hasRead_none hread (fun t _ hN => .blocks hN.1.2) hpublished (by rintro ⟨⟩)
    · rintro ex b ⟨hread, hblocks, hpublished⟩
      refine hasRead_none hread (fun t _ _ => ?_) hpublished (by rintro ⟨⟩)
      rw [hblocks]
      exact .nothing
  case isFalse hnot =>
    refine triple_pure ?_
    rintro b ⟨⟨hread, hblocks, hpublished, rfl⟩, rfl⟩
    refine hasRead_none hread (fun t _ _ => ?_) hpublished fun _ => hnot
    rw [hblocks]
    exact .nothing

theorem triple_publishState (r : Except Exn Unit) :
    Triple (HasRead K topics env s D published synchronized r) (publishState topics env)
      fun outcome => HasTold K topics env s D published synchronized (outcome.bind fun _ => r) := by
  unfold publishState
  refine triple_get fun b₀ => ?_
  rintro b ⟨hread, rfl⟩
  refine ends_lift (fun message hmessage => ?_) fun ex hmessage => ?_
  · show HasTold K topics env s D published synchronized r
      { b with published := b.published ++ [message] }
    refine hread.imp fun _ _ _ h => ?_
    obtain ⟨logged, hreading, hpublished, hboth⟩ := h
    refine ⟨b.blocks, logged, hreading, ?_, hboth⟩
    unfold messages
    rw [hmessage, ← List.append_assoc, ← hpublished]
    rfl
  · refine hread.imp fun _ _ _ h => ?_
    obtain ⟨logged, hreading, hpublished, hboth⟩ := h
    refine ⟨b.blocks, logged, hreading, ?_, by rintro ⟨⟩⟩
    unfold messages
    rw [hmessage, hpublished]
    exact congrArg _ (List.append_nil _).symm

/-- Whatever a broadcast starts from, it tells what it has read. -/
theorem triple_run : Triple (fun b => K.Holds s (Says K (· = D)) b.toWorld ∧
      b.published = published ∧ b.state.synchronized_ev = synchronized)
    (run topics (K.environment base s))
    (HasTold K topics (K.environment base s) s D published synchronized) := by
  unfold run
  refine triple_modify_bind (B := fun b => K.Holds s (Says K (· = D)) b.toWorld ∧
    b.blocks = [] ∧ b.published = published ∧ b.state.synchronized_ev = synchronized)
    (fun b h => ⟨h.1, rfl, h.2.1, h.2.2⟩) ?_
  exact triple_finally triple_publishBlocks triple_publishState

/-! ## What a broadcast leaves -/

theorem keeps_api {α : Type} {x : Api α} {C : World → Prop} (h : Keeps C x) :
    Keeps (fun b => C b.toWorld) (api x) :=
  fun b hb => h b.toWorld hb

theorem keeps_run : Keeps (fun b => K.Holds s K.Mirrored b.toWorld)
    (run topics (K.environment base s)) := by
  have hpublish : ∀ message, Keeps (fun b => K.Holds s K.Mirrored b.toWorld) (publish message) :=
    fun message => triple_modify fun _ hb => hb
  have hblocks : Keeps (fun b => K.Holds s K.Mirrored b.toWorld)
      (publishBlocks topics (K.environment base s)) := by
    unfold publishBlocks
    refine keeps_get fun b₀ => ?_
    split
    · refine keeps_bind (keeps_api Keeper.keeps_readAll) fun blocks => ?_
      refine keeps_bind (triple_modify fun _ hb => hb) fun _ => ?_
      exact keeps_bind (keeps_api Keeper.keeps_readAll) fun logged_blocks => hpublish _
    · exact keeps_pure _
  unfold run
  refine keeps_bind (triple_modify fun _ hb => hb) fun _ => ?_
  refine triple_finally hblocks fun _ => ?_
  unfold publishState
  exact keeps_get fun b₀ => keeps_bind (keeps_lift _) fun message => hpublish message

end

end devcon_spark.broadcast

namespace devcon_spark.mocked

open devcon_spark.broadcast (Broadcaster Message Reading Topics messages)

variable {Msg : Type}

/-- A service and what its broadcaster has published. -/
structure Station (Msg : Type) extends Service Msg where
  published : List Message := []

inductive StationAction
  | acted (action : Action)
  | broadcasted

section

variable (setup : Setup Msg) (topics : Topics) (station : Station Msg)

/-- A broadcast, as it ends. -/
def broadcasted : Except Exn Unit × Broadcaster :=
  (broadcast.run topics (environment setup station.controller)).run.run
    { toWorld := { station.world with requests := [] }, published := station.published }

def stationStep : StationAction → Station Msg
  | .acted action => { station with toService := step setup station.toService action }
  | .broadcasted =>
    let out := (broadcasted setup topics station).2
    { world := out.toWorld
      controller := out.requests.foldl (next setup) station.controller
      published := out.published }

def OrderlyStationAction : StationAction → Prop
  | .acted action => OrderlyAction setup station.toService action
  | .broadcasted => orderly setup (stationStep setup topics station .broadcasted).controller

/-- What a broadcast tells is what the controller has: all of its blocks, or none if it could not
read them. It fails to read only if the service is not synchronized, or if it raises. -/
def TellsWhatIs (action : StationAction) : Prop :=
  action = .broadcasted → ∃ blocks logged, Reading (names station.controller) blocks logged ∧
    (stationStep setup topics station action).published = station.published ++
      messages topics (environment setup station.controller)
        (stationStep setup topics station action).world.state.status_desc blocks logged ∧
    ((broadcasted setup topics station).1 = .ok () → station.world.state.synchronized_ev →
      logged.isSome)

end

variable {setup : Setup Msg} {topics : Topics} {station : Station Msg} {action : StationAction}

theorem stationStep_linked (hwire : setup.wire.Faithful) (h : Linked station.toService)
    (horderly : OrderlyStationAction setup topics station action) :
    Linked (stationStep setup topics station action).toService := by
  cases action with
  | acted action => exact step_linked hwire h horderly
  | broadcasted =>
    have hkeeps : (keeper setup hwire).Holds station.controller (keeper setup hwire).Mirrored
        (broadcasted setup topics station).2.toWorld :=
      broadcast.keeps_run _ fun _ => ⟨h.conn, h.mirrored⟩
    obtain ⟨hsound, hmirrored⟩ := hkeeps horderly
    exact ⟨hsound, hmirrored⟩

theorem stationStep_tells (hwire : setup.wire.Faithful) (h : Linked station.toService)
    (horderly : OrderlyStationAction setup topics station action) :
    TellsWhatIs setup topics station action := by
  rintro rfl
  have htold : broadcast.HasTold (keeper setup hwire) topics
      (environment setup station.controller) station.controller (names station.controller)
      station.published station.world.state.synchronized_ev
      (broadcasted setup topics station).1 (broadcasted setup topics station).2 :=
    broadcast.triple_run _ ⟨fun _ => ⟨h.conn, rfl⟩, rfl, rfl⟩
  exact (htold horderly).2

def brewery : Topics := { state_topic := "brewcast/state", history_topic := "brewcast/history" }

def kettleStation : Station Envelope := { toService := startedService }

end devcon_spark.mocked
