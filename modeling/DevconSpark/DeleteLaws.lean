-- The laws of deletion. The controller acts first, and the store is looked up
-- after: a block that has no name at that moment is deleted, and the call raises.
import DevconSpark.ApiGate
import DevconSpark.ApiRuns

open bidict programs devcon_spark.exceptions devcon_spark.models devcon_spark.state_machine

/-! ## Entries that are taken out -/

namespace bidict.Bidict

variable {κ ν : Type} [DecidableEq κ] [DecidableEq ν] {b : Bidict κ ν} {k : κ} {v : ν}

/-- The key of a value is no key of another value. -/
theorem get?_erase_inverse (h : b.inverse? v = some k) (k' : κ) (v' : ν) :
    (b.erase k).get? k' = some v' ↔ b.get? k' = some v' ∧ v' ≠ v := by
  have hkey := inverse?_iff_get?.mp h
  rw [get?_erase]
  refine and_congr_right fun hget => not_congr ⟨?_, ?_⟩
  · rintro rfl
    rw [hkey] at hget
    exact (Option.some.inj hget).symm
  · rintro rfl
    have hkey' := inverse?_iff_get?.mpr hget
    rw [h] at hkey'
    exact (Option.some.inj hkey').symm

end bidict.Bidict

namespace devcon_spark.spark_api

variable {env : Environment} {w w' : World} {block : BlockIdentity} {ident : FirmwareBlockIdentity}

/-! ## The command -/

/-- The command to delete a block was handed over, with the number of the block, in some world. -/
def DeleteSent (env : Environment) (block : BlockIdentity) (w : World)
    (ident : FirmwareBlockIdentity) (w' : World) : Prop :=
  admitted env w = .ok w' ∧ (_to_firmware_block_identity block).run.run w' = (.ok ident, w')

/-- What the controller says to it, and what other tasks left in the meantime. -/
def deleteReply (env : Environment) (ident : FirmwareBlockIdentity) (w : World) :
    Except Exn Unit × Shared :=
  env.reply w.requests (.delete_block ident) w.toShared

/-- The call returns the number, no name stands for it any more, and every other entry is as the
other tasks left it. -/
structure Deleted (outcome : Except Exn BlockIdentity × World) (nid : Int) (shared : Shared) :
    Prop where
  returned : ∃ result, outcome.1 = .ok result ∧ result.nid = some nid
  gone : ∀ sid, outcome.2.block_store.get? sid ≠ some (some nid)
  others : ∀ sid other, other ≠ some nid →
    (outcome.2.block_store.get? sid = some other ↔ shared.block_store.get? sid = some other)

/-- The call raises, and leaves the store as the other tasks left it. -/
def NotDeleted (outcome : Except Exn BlockIdentity × World) (shared : Shared) : Prop :=
  (∃ e, outcome.1 = .error e) ∧ outcome.2.block_store = shared.block_store

/-- A deletion that was confirmed is reported, and one that was not changes nothing. -/
def ReportsDelete (env : Environment) (block : BlockIdentity) (w : World) : Prop :=
  ∀ ident w', DeleteSent env block w ident w' →
    let outcome := (delete_block env block).run.run w
    match deleteReply env ident w' with
    | (.ok _, shared) => Deleted outcome ident.nid shared
    | (.error _, shared) => NotDeleted outcome shared

theorem delete_rejected {shared : Shared} {e : Exn} (hsent : DeleteSent env block w ident w')
    (hreply : deleteReply env ident w' = (.error e, shared)) :
    (delete_block env block).run.run w =
      (.error e, (w'.after (.delete_block ident) shared).raised e) := by
  have hcall : (cmder env (.delete_block ident) : Api Unit).run.run w' =
      (.error e, w'.after (.delete_block ident) shared) := run_cmder hreply
  exact execute_error hsent.1 ((run_bind_ok hsent.2 _).trans (run_bind_error hcall _))

theorem delete_unnamed {shared : Shared} (hsent : DeleteSent env block w ident w')
    (hreply : deleteReply env ident w' = (.ok (), shared))
    (hnone : shared.block_store.inverse? (some ident.nid) = none) :
    (delete_block env block).run.run w =
      (.error { kind := .KeyError, msg := toString ident.nid },
        w'.after (.delete_block ident) shared) := by
  have hcall : (cmder env (.delete_block ident) : Api Unit).run.run w' =
      (.ok (), w'.after (.delete_block ident) shared) := run_cmder hreply
  refine execute_error hsent.1 ((run_bind_ok hsent.2 _).trans ((run_bind_ok hcall _).trans
    ((run_bind_ok (run_get _) _).trans ?_)))
  rw [after_block_store, hnone]
  rfl

theorem delete_named {shared : Shared} {sid : Option String}
    (hsent : DeleteSent env block w ident w')
    (hreply : deleteReply env ident w' = (.ok (), shared))
    (hsome : shared.block_store.inverse? (some ident.nid) = some sid) :
    (delete_block env block).run.run w =
      (.ok { id := sid, nid := some ident.nid, type := ident.type, serviceId := some env.name },
        { w'.after (.delete_block ident) shared with
          block_store := shared.block_store.erase sid }) := by
  have hcall : (cmder env (.delete_block ident) : Api Unit).run.run w' =
      (.ok (), w'.after (.delete_block ident) shared) := run_cmder hreply
  refine execute_ok hsent.1 ((run_bind_ok hsent.2 _).trans ((run_bind_ok hcall _).trans
    ((run_bind_ok (run_get _) _).trans ?_)))
  rw [after_block_store, hsome]
  rfl

/-- A deletion is reported as one exactly when its number has a name once it is confirmed. -/
theorem delete_is_reported_iff (env : Environment) (block : BlockIdentity) (w : World) :
    ReportsDelete env block w ↔ ∀ ident w' shared, DeleteSent env block w ident w' →
      deleteReply env ident w' = (.ok (), shared) →
        ∃ sid, shared.block_store.get? sid = some (some ident.nid) := by
  constructor
  · intro h ident w' shared hsent hreply
    have hdeleted := h ident w' hsent
    rw [hreply] at hdeleted
    cases hinverse : shared.block_store.inverse? (some ident.nid) with
    | some sid => exact ⟨sid, Bidict.inverse?_iff_get?.mp hinverse⟩
    | none =>
      obtain ⟨result, hresult, -⟩ := hdeleted.returned
      rw [delete_unnamed hsent hreply hinverse] at hresult
      cases hresult
  · intro h ident w' hsent
    obtain ⟨answer, shared, hreply⟩ :
        ∃ answer shared, deleteReply env ident w' = (answer, shared) :=
      ⟨_, _, rfl⟩
    cases answer with
    | error e =>
      rw [delete_rejected hsent hreply, hreply]
      exact ⟨⟨e, rfl⟩, raised_block_store e⟩
    | ok u =>
      obtain ⟨sid, hsid⟩ := h ident w' shared hsent hreply
      have hinverse := Bidict.inverse?_iff_get?.mpr hsid
      rw [delete_named hsent hreply hinverse, hreply]
      refine ⟨⟨_, rfl, rfl⟩, ?_, ?_⟩
      · intro other hother
        exact ((Bidict.get?_erase_inverse hinverse other _).mp hother).2 rfl
      · intro other nid hne
        exact (Bidict.get?_erase_inverse hinverse other nid).trans (and_iff_left hne)

/-- A block that is deleted by its number alone, and has no name. -/
theorem nameless_delete_raises : ¬ ReportsDelete echo { nid := some 100 } syncedWorld := by
  intro h
  obtain ⟨result, hresult, -⟩ := (h { nid := 100 } syncedWorld ⟨rfl, rfl⟩).returned
  cases hresult

end devcon_spark.spark_api
