import TealDrive.Accounts.Provision
import TealDrive.Accounts.Quota

namespace TealDrive

open Faults (Triple Stable)
open Store

/-!
# Kernel limits stay below the allocations

The kernel enforces one limit per uid.  The programs of `Provision` lower a
limit before they commit the smaller allocation and raise it only after the
commit of a larger one.  `Bounded` says that every limit in force is covered by
the committed allocation of its account; it also keeps track of who holds a
uid, since a limit is set for an intent before its account exists.
-/

/-! ## The allocation of a virtual account -/

/-- The effective quota of a virtual account, read off its row. -/
def Store.limitOf (store : Store) (id : Uuid) (row : AccountRow) : Nat :=
  match row.role with
  | .user => row.quotaBytes.getD 0
  | .admin => (store.adminOwnQuota.find id).getD
      (store.budgetOf id - (store.childrenTotal id + store.pendingTotal (.account id) none))

theorem Store.limitOf_user {store : Store} {id : Uuid} {row : AccountRow} (role : row.role = .user) :
    store.limitOf id row = row.quotaBytes.getD 0 := by
  unfold limitOf
  rw [role]

theorem Store.limitOf_admin {store : Store} {id : Uuid} {row : AccountRow}
    (role : row.role = .admin) :
    store.limitOf id row = (store.adminOwnQuota.find id).getD
      (store.budgetOf id - (store.childrenTotal id + store.pendingTotal (.account id) none)) := by
  unfold limitOf
  rw [role]

/-- An allocation does not shrink when less is drawn on the same budget. -/
theorem Store.limitOf_mono {store final : Store} {id : Uuid} {row new : AccountRow}
    (role : new.role = row.role) (quota : new.quotaBytes = row.quotaBytes)
    (own : final.adminOwnQuota.find id = store.adminOwnQuota.find id)
    (budget : final.adminBudgets.find id = store.adminBudgets.find id)
    (drawn : final.childrenTotal id + final.pendingTotal (.account id) none ≤
      store.childrenTotal id + store.pendingTotal (.account id) none) :
    store.limitOf id row ≤ final.limitOf id new := by
  cases kind : row.role with
  | user => rw [limitOf_user kind, limitOf_user (role.trans kind), quota]
  | admin =>
      rw [limitOf_admin kind, limitOf_admin (role.trans kind), own]
      unfold budgetOf
      rw [budget]
      cases store.adminOwnQuota.find id with
      | some own => exact Nat.le_refl own
      | none =>
          rw [Option.getD_none, Option.getD_none]
          omega

theorem Store.effectiveQuota_of_virtual {store : Store} (sound : store.Allocated) {id : Uuid}
    {row : AccountRow} (found : store.accounts.find id = some row) (kind : row.kind = .virtual) :
    store.effectiveQuota id = .ok (some (store.limitOf id row)) := by
  cases role : row.role with
  | admin =>
      rw [limitOf_admin role]
      exact effectiveQuota_of_admin sound found kind role
  | user =>
      rw [limitOf_user role, effectiveQuota_of_user found kind role]
      cases sound.shaped id row found with
      | linux linux => cases linux.symm.trans kind
      | admin _ admin => cases admin.symm.trans role
      | user _ _ _ quota =>
          rcases Option.isSome_iff_exists.mp quota with ⟨bytes, given⟩
          rw [given]
          rfl

/-! ## Operations that move no quota -/

/-- Two stores with the same allocations, row by row. -/
structure SameQuotas (store final : Store) : Prop where
  tables : StoreOp.SameTables store final
  children : forall owner, final.childrenTotal owner = store.childrenTotal owner
  kept : forall id row, store.accounts.find id = some row ->
    ∃ new, final.accounts.find id = some new ∧ row.Continues new ∧ new.quotaBytes = row.quotaBytes
  origin : forall id new, final.accounts.find id = some new -> new.kind = .virtual ->
    ∃ row, store.accounts.find id = some row

theorem QuietChange.kept {rows after : Table Uuid AccountRow} (quiet : QuietChange rows after)
    {id : Uuid} {row : AccountRow} (found : rows.find id = some row) :
    ∃ new, after.find id = some new ∧ row.Continues new ∧ new.quotaBytes = row.quotaBytes := by
  rcases quiet.accountsChange.kept found with ⟨new, present, continues⟩
  refine ⟨new, present, continues, ?_⟩
  cases quiet with
  | same =>
      cases found.symm.trans present
      rfl
  | inserted key added inserted kind unowned =>
      have different : id ≠ key := by
        intro same
        rw [same, inserted.absent] at found
        cases found
      rw [Table.find_insert_of_ne _ different, found] at present
      cases present
      rfl
  | updated key old update oldFound permitted keeps =>
      by_cases here : id = key
      · subst here
        rw [Table.find_modify_self, found] at present
        cases present
        cases update with
        | setQuota => cases keeps
        | purge => cases keeps
        | touch | setRole | setPassword | setStatus | enroll | firstPassword | setUndoHours => rfl
      · rw [Table.find_modify_of_ne _ here, found] at present
        cases present
        rfl
  | touched time =>
      rw [Table.find_map, found] at present
      cases present
      rfl

/-- A virtual account is never new after a quiet change. -/
theorem QuietChange.origin {rows after : Table Uuid AccountRow} (quiet : QuietChange rows after)
    {id : Uuid} {new : AccountRow} (found : after.find id = some new)
    (virtual : new.kind = .virtual) : ∃ row, rows.find id = some row := by
  rcases quiet.accountsChange.origin found with ⟨row, present, _⟩ | fresh
  · exact ⟨row, present⟩
  · cases quiet with
    | same =>
        rw [fresh.absent] at found
        cases found
    | inserted key added inserted kind unowned =>
        by_cases here : id = key
        · subst here
          rw [Table.find_insert_self] at found
          cases found
          cases kind.symm.trans virtual
        · rw [Table.find_insert_of_ne _ here, fresh.absent] at found
          cases found
    | updated key old update oldFound permitted keeps =>
        have different : id ≠ key := by
          intro same
          have absent := fresh.absent
          rw [same, oldFound] at absent
          cases absent
        rw [Table.find_modify_of_ne _ different, fresh.absent] at found
        cases found
    | touched time =>
        rw [Table.find_map, fresh.absent] at found
        cases found

theorem SameQuotas.of_quiet {store final : Store} (rows : QuietChange store.accounts final.accounts)
    (tables : StoreOp.SameTables store final) : SameQuotas store final :=
  ⟨tables, fun owner => rows.children owner, fun _ _ => rows.kept, fun _ _ => rows.origin⟩

theorem SameQuotas.refl (store : Store) : SameQuotas store store :=
  .of_quiet .same ⟨rfl, rfl, rfl, rfl, rfl⟩

theorem SameQuotas.limitOf {store final : Store} (same : SameQuotas store final) {id : Uuid}
    {row new : AccountRow} (kind : row.kind = .virtual) (continues : row.Continues new)
    (quota : new.quotaBytes = row.quotaBytes) : final.limitOf id new = store.limitOf id row := by
  have role := continues.role kind
  have pending : final.pendingTotal (.account id) none = store.pendingTotal (.account id) none := by
    unfold pendingTotal
    rw [same.tables.intents]
  unfold Store.limitOf budgetOf
  rw [role, quota, same.tables.own, same.tables.budgets, same.children, pending]

/-! ## The invariant -/

/-- An account as a caller read it, and the row it came from. -/
structure ReadFrom (account : Account) (row : AccountRow) : Prop where
  kind : row.kind = account.kind
  uid : row.uid = account.uid
  owner : row.ownerAdminId = account.ownerAdminId
  role : row.kind = .virtual -> row.role = account.role

/-- What a pending intent holds: its uid is nobody else's, and the kernel's
limit of that uid is at most the quota it reserved. -/
structure Holds (store : Store) (native : Nat -> Option Nat) (key : IntentKey) (intent : Intent) :
    Prop where
  unowned : forall id row, store.accounts.find id = some row -> row.kind = .virtual ->
    row.uid ≠ intent.uid
  alone : forall other second, store.virtualCreate.find other = some second ->
    second.accountId = none -> second.uid = intent.uid -> other = key
  limit : forall limit, native intent.uid = some limit -> limit ≤ intent.quota

/-- A uid that may have a limit in the kernel. -/
def Store.Known (store : Store) (uid : Nat) : Prop :=
  (∃ id row, store.accounts.find id = some row ∧ row.kind = .virtual ∧ row.uid = uid) ∨
    (∃ key intent, store.virtualCreate.find key = some intent ∧ intent.uid = uid) ∨
    (store.virtualUidRetired.find uid).isSome = true

structure Bounded (cfg : AppConfig) (world : World) : Prop where
  allocated : world.store.Allocated
  within : forall id row limit, world.store.accounts.find id = some row -> row.kind = .virtual ->
    world.store.virtualPurged.find id = none -> world.native row.uid = some limit ->
    limit ≤ world.store.limitOf id row
  held : forall key intent, world.store.virtualCreate.find key = some intent ->
    intent.accountId = none -> Holds world.store world.native key intent
  known : forall uid limit, world.native uid = some limit -> world.store.Known uid
  unique : UniqueUids world.store.accounts
  owners : forall id row owner, world.store.accounts.find id = some row ->
    row.ownerAdminId = some owner -> ∃ ownerRow, world.store.accounts.find owner = some ownerRow ∧
      (ownerRow.kind = .virtual -> ownerRow.role = .admin)
  taken : forall account, account ∈ world.taken ->
    ∃ row, world.store.accounts.find account.id = some row ∧ ReadFrom account row
  off : cfg.virtualAccounts.enforcement ≠ .userQuota -> forall uid, world.native uid = none

theorem ReadFrom.continues {account : Account} {row new : AccountRow} (read : ReadFrom account row)
    (continues : row.Continues new) : ReadFrom account new where
  kind := continues.kind.trans read.kind
  uid := continues.uid.trans read.uid
  owner := continues.owner.trans read.owner
  role := by
    intro virtual
    have before : row.kind = .virtual := continues.kind.symm.trans virtual
    exact (continues.role before).trans (read.role before)

namespace Bounded

variable {cfg : AppConfig} {world : World}

theorem initial (cfg : AppConfig) (dummyPasswordHash : Text) :
    Bounded cfg (World.initial dummyPasswordHash) where
  allocated := Allocated.initial dummyPasswordHash
  within := by
    intro id row limit found
    cases found
  held := by
    intro key intent found
    cases found
  known := by
    intro uid limit applied
    cases applied
  unique := by
    intro first second firstRow secondRow found
    cases found
  owners := by
    intro id row owner found
    cases found
  taken := by
    intro account member
    cases member
  off := fun _ _ => rfl

/-- A commit that creates no virtual account and touches no intent, as long as
every limit in force is covered afterwards. -/
theorem advance {final : Store} (sound : Bounded cfg world) (allocated : final.Allocated)
    (change : AccountsChange world.store.accounts final.accounts)
    (origin : forall id new, final.accounts.find id = some new -> new.kind = .virtual ->
      ∃ row, world.store.accounts.find id = some row)
    (intents : final.virtualCreate = world.store.virtualCreate)
    (retired : forall uid, (world.store.virtualUidRetired.find uid).isSome = true ->
      (final.virtualUidRetired.find uid).isSome = true)
    (within : forall id row new limit, world.store.accounts.find id = some row ->
      final.accounts.find id = some new -> row.Continues new -> new.kind = .virtual ->
      final.virtualPurged.find id = none -> world.native new.uid = some limit ->
      limit ≤ final.limitOf id new) :
    Bounded cfg { world with store := final } where
  allocated := allocated
  within := by
    intro id new limit found virtual unpurged applied
    rcases origin id new found virtual with ⟨row, present⟩
    rcases change.kept present with ⟨kept, keptFound, continues⟩
    cases keptFound.symm.trans found
    exact within id row new limit present found continues virtual unpurged applied
  held := by
    intro key intent found pending
    rw [intents] at found
    have holds := sound.held key intent found pending
    refine ⟨?_, ?_, holds.limit⟩
    · intro id new newFound virtual
      rcases origin id new newFound virtual with ⟨row, present⟩
      rcases change.kept present with ⟨kept, keptFound, continues⟩
      cases keptFound.symm.trans newFound
      rw [continues.uid]
      exact holds.unowned id row present (continues.kind.symm.trans virtual)
    · intro other second otherFound
      rw [intents] at otherFound
      exact holds.alone other second otherFound
  known := by
    intro uid limit applied
    rcases sound.known uid limit applied with ⟨id, row, found, virtual, same⟩ | intent | gone
    · rcases change.kept found with ⟨new, newFound, continues⟩
      exact Or.inl ⟨id, new, newFound, continues.kind.trans virtual, continues.uid.trans same⟩
    · refine Or.inr (Or.inl ?_)
      rw [intents]
      exact intent
    · exact Or.inr (Or.inr (retired uid gone))
  unique := sound.unique.change change
  owners := by
    intro id new owner found owned
    rcases change.origin found with ⟨row, present, continues⟩ | inserted
    · rcases sound.owners id row owner present (continues.owner ▸ owned) with
        ⟨ownerRow, ownerFound, admin⟩
      rcases change.kept ownerFound with ⟨ownerNew, ownerNewFound, ownerContinues⟩
      refine ⟨ownerNew, ownerNewFound, ?_⟩
      intro virtual
      have before : ownerRow.kind = .virtual := ownerContinues.kind.symm.trans virtual
      exact (ownerContinues.role before).trans (admin before)
    · cases inserted.shaped with
      | linux _ unowned => cases unowned.symm.trans owned
      | admin _ _ unowned => cases unowned.symm.trans owned
      | user virtual =>
          rcases origin id new found virtual with ⟨row, present⟩
          cases inserted.absent.symm.trans present
  taken := by
    intro account member
    rcases sound.taken account member with ⟨row, found, read⟩
    rcases change.kept found with ⟨new, newFound, continues⟩
    exact ⟨new, newFound, read.continues continues⟩
  off := sound.off

/-- Accounts whose allocation did not shrink are covered as before. -/
theorem covered_of_le {final : Store} (sound : Bounded cfg world) {id : Uuid}
    {row new : AccountRow} (found : world.store.accounts.find id = some row)
    (continues : row.Continues new) (virtual : new.kind = .virtual)
    (unpurged : world.store.virtualPurged.find id = none)
    (grown : world.store.limitOf id row ≤ final.limitOf id new) {limit : Nat}
    (applied : world.native new.uid = some limit) : limit ≤ final.limitOf id new := by
  rw [continues.uid] at applied
  exact Nat.le_trans (sound.within id row limit found (continues.kind.symm.trans virtual) unpurged
    applied) grown

theorem quiet {final : Store} (sound : Bounded cfg world) (allocated : final.Allocated)
    (rows : QuietChange world.store.accounts final.accounts)
    (tables : StoreOp.SameTables world.store final) :
    Bounded cfg { world with store := final } := by
  have same := SameQuotas.of_quiet rows tables
  refine sound.advance allocated rows.accountsChange same.origin tables.intents ?_ ?_
  · intro uid gone
    rw [tables.retired]
    exact gone
  · intro id row new limit found newFound continues virtual unpurged applied
    rcases rows.kept found with ⟨kept, keptFound, _, quota⟩
    cases keptFound.symm.trans newFound
    rw [tables.purged] at unpurged
    refine sound.covered_of_le found continues virtual unpurged ?_ applied
    exact Nat.le_of_eq (same.limitOf (continues.kind.symm.trans virtual) continues quota).symm

theorem move {env : Environment} (sound : Bounded cfg world) (step : Move) :
    Bounded cfg (world.move env step) ∧ SameQuotas world.store (world.move env step).store := by
  cases step with
  | get id =>
      cases read : world.store.account id with
      | error problem =>
          have unchanged : world.move env (.get id) = world := by simp only [World.move, read]
          rw [unchanged]
          exact ⟨sound, .refl _⟩
      | ok account =>
          have added : world.move env (.get id) =
              { world with taken := account :: world.taken } := by simp only [World.move, read]
          rw [added]
          refine ⟨{ sound with taken := ?_ }, .refl _⟩
          intro other member
          rcases List.mem_cons.mp member with here | earlier
          · rcases account_ok read with ⟨row, found, viewed⟩
            subst here
            subst viewed
            exact ⟨row, found, rfl, rfl, rfl, fun _ => rfl⟩
          · exact sound.taken other earlier
  | commit op =>
      by_cases silent : op.quiet = true
      · have committed : world.move env (.commit op) =
            { world with store := StoreOp.step env world.store op } := if_pos silent
        rw [committed]
        rcases StoreOp.step_cases env world.store op with same | done
        · rw [same]
          exact ⟨sound, .refl _⟩
        · rcases StoreOp.apply_quiet done silent with ⟨rows, tables, _⟩
          exact ⟨sound.quiet (sound.allocated.apply done) rows tables, .of_quiet rows tables⟩
      · have unchanged : world.move env (.commit op) = world := if_neg silent
        rw [unchanged]
        exact ⟨sound, .refl _⟩

end Bounded

/-! ## Applying a limit -/

theorem nativeLimit_le (cfg : AppConfig) (bytes : Nat) : nativeLimit cfg bytes ≤ bytes := by
  unfold nativeLimit
  cases cfg.homeTemplate.bind (fun template => template.quotaBytes) with
  | none => exact Nat.le_refl bytes
  | some limit => exact Nat.min_le_left bytes limit

theorem World.withNative_store (cfg : AppConfig) (world : World) (uid bytes : Nat) :
    (world.withNative cfg uid bytes).store = world.store := by
  unfold World.withNative
  split <;> rfl

theorem World.withNative_taken (cfg : AppConfig) (world : World) (uid bytes : Nat) :
    (world.withNative cfg uid bytes).taken = world.taken := by
  unfold World.withNative
  split <;> rfl

/-- A limit in force afterwards is the new one, or an old one of another uid. -/
theorem World.withNative_native {cfg : AppConfig} {world : World} {uid bytes other limit : Nat}
    (applied : (world.withNative cfg uid bytes).native other = some limit) :
    (other = uid ∧ limit ≤ bytes ∧ cfg.virtualAccounts.enforcement = .userQuota) ∨
      (world.native other = some limit ∧
        (other = uid -> cfg.virtualAccounts.enforcement ≠ .userQuota)) := by
  unfold World.withNative at applied
  by_cases enforced : cfg.virtualAccounts.enforcement = .userQuota
  · rw [if_pos enforced] at applied
    change (if other = uid then some (nativeLimit cfg bytes) else world.native other) = _ at applied
    by_cases same : other = uid
    · rw [if_pos same] at applied
      cases applied
      exact Or.inl ⟨same, nativeLimit_le cfg bytes, enforced⟩
    · rw [if_neg same] at applied
      exact Or.inr ⟨applied, fun equal => absurd equal same⟩
  · rw [if_neg enforced] at applied
    exact Or.inr ⟨applied, fun _ => enforced⟩

/-- What a limit must respect before it is applied. -/
structure MayApply (store : Store) (uid bytes : Nat) : Prop where
  accounts : forall id row, store.accounts.find id = some row -> row.kind = .virtual ->
    row.uid = uid -> bytes ≤ store.limitOf id row
  intents : forall key intent, store.virtualCreate.find key = some intent ->
    intent.accountId = none -> intent.uid = uid -> bytes ≤ intent.quota
  known : store.Known uid

/-- A virtual account of the uid has at least this allocation. -/
def Store.Promises (store : Store) (id : Uuid) (uid bytes : Nat) : Prop :=
  ∃ row, store.accounts.find id = some row ∧ row.kind = .virtual ∧ row.uid = uid ∧
    bytes ≤ store.limitOf id row

theorem SameQuotas.promises {store final : Store} (same : SameQuotas store final) {id : Uuid}
    {uid bytes : Nat} (promised : store.Promises id uid bytes) : final.Promises id uid bytes := by
  rcases promised with ⟨row, found, virtual, sameUid, below⟩
  rcases same.kept id row found with ⟨new, newFound, continues, quota⟩
  refine ⟨new, newFound, continues.kind.trans virtual, continues.uid.trans sameUid, ?_⟩
  rw [same.limitOf virtual continues quota]
  exact below

namespace Bounded

variable {cfg : AppConfig} {world : World}

theorem mayApply_of_promises (sound : Bounded cfg world) {id : Uuid} {uid bytes : Nat}
    (promised : world.store.Promises id uid bytes) : MayApply world.store uid bytes := by
  rcases promised with ⟨row, found, virtual, sameUid, below⟩
  refine ⟨?_, ?_, Or.inl ⟨id, row, found, virtual, sameUid⟩⟩
  · intro other otherRow otherFound _ otherUid
    have same := sound.unique id other row otherRow found otherFound (sameUid.trans otherUid.symm)
    subst same
    cases found.symm.trans otherFound
    exact below
  · intro key intent intentFound pending intentUid
    have free := (sound.held key intent intentFound pending).unowned id row found virtual
    exact absurd (sameUid.trans intentUid.symm) free

theorem mayApply_of_intent (sound : Bounded cfg world) {key : IntentKey} {intent : Intent}
    {bytes : Nat} (found : world.store.virtualCreate.find key = some intent)
    (pending : intent.accountId = none) (below : bytes ≤ intent.quota) :
    MayApply world.store intent.uid bytes := by
  have holds := sound.held key intent found pending
  refine ⟨?_, ?_, Or.inr (Or.inl ⟨key, intent, found, rfl⟩)⟩
  · intro id row rowFound virtual sameUid
    exact absurd sameUid (holds.unowned id row rowFound virtual)
  · intro other second secondFound secondPending sameUid
    have same := holds.alone other second secondFound secondPending sameUid
    subst same
    cases found.symm.trans secondFound
    exact below

theorem withNative (sound : Bounded cfg world) {uid bytes : Nat}
    (may : MayApply world.store uid bytes) : Bounded cfg (world.withNative cfg uid bytes) where
  allocated := by
    rw [World.withNative_store]
    exact sound.allocated
  within := by
    rw [World.withNative_store]
    intro id row limit found virtual unpurged applied
    rcases World.withNative_native applied with ⟨same, below, _⟩ | ⟨before, _⟩
    · exact Nat.le_trans below (may.accounts id row found virtual same)
    · exact sound.within id row limit found virtual unpurged before
  held := by
    rw [World.withNative_store]
    intro key intent found pending
    have holds := sound.held key intent found pending
    refine ⟨holds.unowned, holds.alone, ?_⟩
    intro limit applied
    rcases World.withNative_native applied with ⟨same, below, _⟩ | ⟨before, _⟩
    · exact Nat.le_trans below (may.intents key intent found pending same)
    · exact holds.limit limit before
  known := by
    rw [World.withNative_store]
    intro other limit applied
    rcases World.withNative_native applied with ⟨same, _⟩ | ⟨before, _⟩
    · exact same ▸ may.known
    · exact sound.known other limit before
  unique := by
    rw [World.withNative_store]
    exact sound.unique
  owners := by
    rw [World.withNative_store]
    exact sound.owners
  taken := by
    rw [World.withNative_store, World.withNative_taken]
    exact sound.taken
  off := by
    intro disabled other
    unfold World.withNative
    rw [if_neg disabled]
    exact sound.off disabled other

end Bounded

/-! ## Commits -/

namespace Bounded

variable {cfg : AppConfig} {world : World}

/-- A child's quota moves; the kernel was told about whatever shrinks. -/
theorem setChildQuota (sound : Bounded cfg world) {actor : Authority} {id owner : Uuid}
    {row : AccountRow} {generation bytes remaining now : Nat} {final : Store}
    (checked : world.store.checkChildQuota actor id generation bytes = .ok remaining)
    (written : final = ({ world.store with
      virtualQuotaSync := world.store.virtualQuotaSync.insert id () }).updateRow
        (.setQuota bytes now) id)
    (found : world.store.accounts.find id = some row) (owned : row.ownerAdminId = some owner)
    (target : world.store.virtualPurged.find id = none ->
      forall limit, world.native row.uid = some limit -> limit ≤ bytes)
    (parent : forall ownerRow limit, world.store.accounts.find owner = some ownerRow ->
      ownerRow.kind = .virtual -> world.store.virtualPurged.find owner = none ->
      world.native ownerRow.uid = some limit -> limit ≤ remaining) :
    Bounded cfg { world with store := final } ∧ final.Promises id row.uid bytes ∧
      forall ownerRow, world.store.accounts.find owner = some ownerRow ->
        ownerRow.kind = .virtual -> final.Promises owner ownerRow.uid remaining := by
  rcases checkChildQuota_ok checked with
    ⟨again, other, foundAgain, kind, role, alive, _, ownedAgain, _⟩
  cases found.symm.trans foundAgain
  cases owned.symm.trans ownedAgain
  have allocated : final.Allocated := written ▸ sound.allocated.setChildQuota checked
  rcases sound.allocated.childQuota checked found owned with ⟨part, room, left⟩
  have rewritten : final.accounts.find id = some ((RowUpdate.setQuota bytes now).apply row) := by
    rw [written]
    exact (Table.find_modify_self _).trans (by rw [found]; rfl)
  have others : forall key, key ≠ id ->
      final.accounts.find key = world.store.accounts.find key := by
    intro key different
    rw [written]
    exact Table.find_modify_of_ne _ different
  have moved : forall key, final.childrenTotal key + childWeight key row =
      world.store.childrenTotal key +
        childWeight key ((RowUpdate.setQuota bytes now).apply row) := by
    intro key
    rw [written]
    exact childrenTotal_updateRow found (.setQuota bytes now) key
  have targetLimit : final.limitOf id ((RowUpdate.setQuota bytes now).apply row) = bytes :=
    limitOf_user role
  have parentLimit : forall ownerRow, world.store.accounts.find owner = some ownerRow ->
      ownerRow.kind = .virtual -> final.limitOf owner ownerRow = remaining := by
    intro ownerRow ownerFound virtual
    rcases sound.owners id row owner found owned with ⟨present, presentFound, admin⟩
    cases ownerFound.symm.trans presentFound
    have before : childWeight owner row = row.quotaBytes.getD 0 := if_pos owned
    have after : childWeight owner ((RowUpdate.setQuota bytes now).apply row) = bytes :=
      if_pos owned
    have sum := moved owner
    have covered := sound.allocated.budget owner
    have budgetSame : final.budgetOf owner = world.store.budgetOf owner := by rw [written]; rfl
    have pendingSame : final.pendingTotal (.account owner) none =
        world.store.pendingTotal (.account owner) none := by rw [written]; rfl
    have ownSame : final.adminOwnQuota = world.store.adminOwnQuota := by rw [written]; rfl
    rw [limitOf_admin (admin virtual), left, ownSame, budgetSame, pendingSame]
    cases world.store.adminOwnQuota.find owner with
    | some own => rfl
    | none =>
        rw [Option.getD_none, Option.getD_none]
        omega
  have change : AccountsChange world.store.accounts final.accounts := by
    rw [written]
    exact .updated id row _ found (.setQuota bytes now kind role (by rw [owned]; rfl) alive)
  have apart : owner ≠ id := by
    intro same
    rcases sound.owners id row owner found owned with ⟨present, presentFound, admin⟩
    rw [same] at presentFound
    cases found.symm.trans presentFound
    cases (admin kind).symm.trans role
  refine ⟨?_, ⟨_, rewritten, kind, rfl, Nat.le_of_eq targetLimit.symm⟩, ?_⟩
  · refine sound.advance allocated change ?_ (by rw [written]; rfl) (by rw [written]; exact fun _ gone => gone) ?_
    · intro key new newFound virtual
      rcases change.origin newFound with ⟨old, present, _⟩ | inserted
      · exact ⟨old, present⟩
      · by_cases here : key = id
        · exact ⟨row, here ▸ found⟩
        · rw [others key here, inserted.absent] at newFound
          cases newFound
    · intro key old new limit oldFound newFound continues virtual unpurged applied
      have purgedSame : final.virtualPurged = world.store.virtualPurged := by rw [written]; rfl
      rw [purgedSame] at unpurged
      by_cases here : key = id
      · subst here
        cases rewritten.symm.trans newFound
        rw [targetLimit]
        exact target unpurged limit applied
      · rw [others key here] at newFound
        cases oldFound.symm.trans newFound
        by_cases above : key = owner
        · subst above
          rw [parentLimit old oldFound virtual]
          exact parent old limit oldFound virtual unpurged applied
        · refine sound.covered_of_le oldFound continues virtual unpurged ?_ applied
          have otherWeight : forall bearer : AccountRow, bearer.ownerAdminId = some owner ->
              childWeight key bearer = 0 := by
            intro bearer bears
            apply if_neg
            rw [bears]
            exact fun same => above (Option.some.inj same).symm
          have sum := moved key
          rw [otherWeight row owned,
            otherWeight ((RowUpdate.setQuota bytes now).apply row) owned] at sum
          have childrenSame : final.childrenTotal key = world.store.childrenTotal key := sum
          have pendingSame : final.pendingTotal (.account key) none =
              world.store.pendingTotal (.account key) none := by rw [written]; rfl
          refine limitOf_mono rfl rfl (by rw [written]; rfl) (by rw [written]; rfl) ?_
          rw [childrenSame, pendingSame]
  · intro ownerRow ownerFound virtual
    refine ⟨ownerRow, (others owner apart).trans ownerFound, virtual, rfl, ?_⟩
    exact Nat.le_of_eq (parentLimit ownerRow ownerFound virtual).symm

/-- A budget moves; the kernel was told when it shrinks. -/
theorem setAdminBudget (sound : Bounded cfg world) {actor : Authority} {id : Uuid}
    {row : AccountRow} {bytes remaining : Nat}
    (checked : world.store.checkBudget actor id bytes = .ok remaining)
    (found : world.store.accounts.find id = some row)
    (target : world.store.virtualPurged.find id = none ->
      forall limit, row.kind = .virtual -> world.native row.uid = some limit ->
        limit ≤ remaining) :
    Bounded cfg { world with
      store := { world.store with adminBudgets := world.store.adminBudgets.insert id bytes } } ∧
      (row.kind = .virtual ->
        ({ world.store with
          adminBudgets := world.store.adminBudgets.insert id bytes }).Promises id row.uid
            remaining) := by
  have allocated := sound.allocated.setAdminBudget checked
  rcases checkBudget_ok checked with ⟨⟨again, foundAgain, role, _⟩, _, _, _, left⟩
  cases found.symm.trans foundAgain
  have limit : ({ world.store with
      adminBudgets := world.store.adminBudgets.insert id bytes }).limitOf id row = remaining := by
    rw [limitOf_admin role, budgetOf_insert_self, left]
    rfl
  refine ⟨?_, fun virtual => ⟨row, found, virtual, rfl, Nat.le_of_eq limit.symm⟩⟩
  refine sound.advance allocated .same (fun key new newFound _ => ⟨new, newFound⟩) rfl
    (fun _ gone => gone) ?_
  intro key old new amount oldFound newFound continues virtual unpurged applied
  cases oldFound.symm.trans newFound
  by_cases here : key = id
  · subst here
    cases found.symm.trans oldFound
    rw [limit]
    exact target unpurged amount virtual applied
  · refine sound.covered_of_le oldFound continues virtual unpurged ?_ applied
    exact limitOf_mono rfl rfl rfl (Table.find_insert_of_ne _ here) (Nat.le_refl _)

/-- An own quota moves; the kernel was told when it shrinks. -/
theorem setAdminOwn (sound : Bounded cfg world) {actor : Authority} {id : Uuid}
    {row : AccountRow} {bytes now : Nat} {final : Store}
    (checked : world.store.checkOwn actor id bytes = .ok ())
    (written : final = ({ world.store with
      adminOwnQuota := world.store.adminOwnQuota.insert id bytes
      virtualQuotaSync := world.store.virtualQuotaSync.insert id () }).updateRow (.touch now) id)
    (found : world.store.accounts.find id = some row)
    (target : world.store.virtualPurged.find id = none ->
      forall limit, world.native row.uid = some limit -> limit ≤ bytes) :
    Bounded cfg { world with store := final } ∧ final.Promises id row.uid bytes := by
  have allocated : final.Allocated := written ▸ sound.allocated.setAdminOwn checked
  rcases checkOwn_ok checked with ⟨_, _, _, ⟨again, foundAgain, kind, role, active⟩, _⟩
  cases found.symm.trans foundAgain
  have touched : QuietChange world.store.accounts final.accounts := by
    rw [written]
    exact .updated id row _ found (.touch now (by rw [active]; decide)) rfl
  have rewritten : final.accounts.find id = some ((RowUpdate.touch now).apply row) := by
    rw [written]
    exact (Table.find_modify_self _).trans (by rw [found]; rfl)
  have ownNow : final.adminOwnQuota = world.store.adminOwnQuota.insert id bytes := by
    rw [written]
    rfl
  have limit : final.limitOf id ((RowUpdate.touch now).apply row) = bytes := by
    have admin : ((RowUpdate.touch now).apply row).role = .admin := role
    rw [limitOf_admin admin, ownNow, Table.find_insert_self]
    rfl
  refine ⟨?_, _, rewritten, kind, rfl, Nat.le_of_eq limit.symm⟩
  refine sound.advance allocated touched.accountsChange (fun _ _ => touched.origin)
    (by rw [written]; rfl) (by rw [written]; exact fun _ gone => gone) ?_
  intro key old new amount oldFound newFound continues virtual unpurged applied
  have purgedSame : final.virtualPurged = world.store.virtualPurged := by rw [written]; rfl
  rw [purgedSame] at unpurged
  by_cases here : key = id
  · subst here
    cases rewritten.symm.trans newFound
    rw [limit]
    exact target unpurged amount applied
  · rcases touched.kept oldFound with ⟨kept, keptFound, _, quota⟩
    cases keptFound.symm.trans newFound
    refine sound.covered_of_le oldFound continues virtual unpurged ?_ applied
    have virtualBefore : old.kind = .virtual := continues.kind.symm.trans virtual
    have childrenSame : final.childrenTotal key = world.store.childrenTotal key :=
      touched.children key
    have pendingSame : final.pendingTotal (.account key) none =
        world.store.pendingTotal (.account key) none := by rw [written]; rfl
    refine limitOf_mono (continues.role virtualBefore) quota ?_ (by rw [written]; rfl) ?_
    · rw [ownNow, Table.find_insert_of_ne _ here]
    · rw [childrenSame, pendingSame]

/-- An intent reserves a uid that nobody knows. -/
theorem recordIntent (sound : Bounded cfg world) {key : IntentKey} {intent : Intent}
    (allocated : ({ world.store with
      virtualCreate := world.store.virtualCreate.insert key intent }).Allocated)
    (absent : world.store.virtualCreate.find key = none)
    (free : ¬ world.store.Known intent.uid)
    (within : forall id row limit, world.store.accounts.find id = some row -> row.kind = .virtual ->
      world.store.virtualPurged.find id = none -> world.native row.uid = some limit ->
      limit ≤ ({ world.store with
        virtualCreate := world.store.virtualCreate.insert key intent }).limitOf id row) :
    Bounded cfg { world with store := { world.store with
      virtualCreate := world.store.virtualCreate.insert key intent } } where
  allocated := allocated
  within := within
  held := by
    intro other second found pending
    by_cases here : other = key
    · subst here
      cases (Table.find_insert_self _ _ _).symm.trans found
      refine ⟨?_, ?_, ?_⟩
      · intro id row rowFound virtual same
        exact free (Or.inl ⟨id, row, rowFound, virtual, same⟩)
      · intro third intent thirdFound _ same
        by_cases again : third = other
        · exact again
        · have before := (Table.find_insert_of_ne _ again).symm.trans thirdFound
          exact absurd (Or.inr (Or.inl ⟨third, intent, before, same⟩)) free
      · intro limit applied
        exact absurd (sound.known _ limit applied) free
    · have before := (Table.find_insert_of_ne _ here).symm.trans found
      have holds := sound.held other second before pending
      refine ⟨holds.unowned, ?_, holds.limit⟩
      intro third intent thirdFound thirdPending same
      by_cases again : third = key
      · subst again
        cases (Table.find_insert_self _ _ _).symm.trans thirdFound
        exact absurd (Or.inr (Or.inl ⟨other, second, before, same.symm⟩)) free
      · have thirdBefore := (Table.find_insert_of_ne _ again).symm.trans thirdFound
        exact holds.alone third intent thirdBefore thirdPending same
  known := by
    intro uid limit applied
    rcases sound.known uid limit applied with account | ⟨other, second, found, same⟩ | gone
    · exact Or.inl account
    · have different : other ≠ key := by
        intro equal
        rw [equal, absent] at found
        cases found
      exact Or.inr (Or.inl ⟨other, second, (Table.find_insert_of_ne _ different).trans found, same⟩)
    · exact Or.inr (Or.inr gone)
  unique := sound.unique
  owners := sound.owners
  taken := sound.taken
  off := sound.off

/-- The account that completes an intent gets what the intent reserved. -/
theorem limitOf_created {store final : Store} (sound : store.Allocated) {actor : Authority}
    {id : Uuid} {now : Nat} {new : NewAccount} {hash : Option Text} {key : IntentKey}
    {intent : Intent} {budget : Option Nat}
    (created : Created store actor id new (some (key, intent)) budget)
    (budgets : final.adminBudgets = withBudget store.adminBudgets id budget)
    (own : final.adminOwnQuota = store.adminOwnQuota)
    (children : final.childrenTotal id = store.childrenTotal id +
      childWeight id (createdRow now new hash))
    (pending : final.pendingTotal (.account id) none ≤ store.pendingTotal (.account id) none)
    (drawn : new.role = .user ∧ new.quotaBytes = some intent.quota ∨
      new.role = .admin ∧ new.ownerAdminId = none ∧ budget = some intent.quota) :
    final.limitOf id (createdRow now new hash) = intent.quota := by
  rcases drawn with ⟨user, quota⟩ | ⟨admin, unowned, drawn⟩
  · have role : (createdRow now new hash).role = .user := user
    have bytes : (createdRow now new hash).quotaBytes = some intent.quota := quota
    rw [limitOf_user role, bytes]
    rfl
  · subst drawn
    have role : (createdRow now new hash).role = .admin := admin
    have free := created.unbudgeted rfl
    have covered := sound.budget id
    have nothing : store.budgetOf id = 0 := by
      unfold budgetOf
      rw [free]
      rfl
    have unfixed : store.adminOwnQuota.find id = none := by
      cases stored : store.adminOwnQuota.find id with
      | none => rfl
      | some bytes =>
          have positive := sound.own id bytes stored
          unfold ownOf at covered
          rw [stored, Option.getD_some] at covered
          omega
    have weight : childWeight id (createdRow now new hash) = 0 := childWeight_of_unowned unowned id
    have limit : final.budgetOf id = intent.quota := by
      unfold budgetOf
      rw [budgets]
      change ((store.adminBudgets.insert id intent.quota).find id).getD 0 = intent.quota
      rw [Table.find_insert_self]
      rfl
    rw [limitOf_admin role, own, unfixed, Option.getD_none, limit]
    omega

theorem create (sound : Bounded cfg world) {actor : Authority} {id : Uuid} {now : Nat}
    {new : NewAccount} {hash : Option Text} {key : IntentKey} {intent : Intent}
    {budget : Option Nat} {required : Table Uuid Unit} {final : Store}
    (created : Created world.store actor id new (some (key, intent)) budget)
    (written : final = { world.store with
      accounts := world.store.accounts.insert id (createdRow now new hash)
      adminBudgets := withBudget world.store.adminBudgets id budget
      passwordChangeRequired := required
      virtualCreate := withIntent world.store.virtualCreate id (some (key, intent)) })
    (found : world.store.virtualCreate.find key = some intent) (pending : intent.accountId = none)
    (uid : new.uid = intent.uid)
    (drawn : (new.role = .user ∧ ∃ owner, new.ownerAdminId = some owner ∧
        intent.owner = .account owner ∧ new.quotaBytes = some intent.quota) ∨
      new.role = .admin ∧ new.ownerAdminId = none ∧ budget = some intent.quota) :
    Bounded cfg { world with store := final } := by
  have allocated : final.Allocated := by
    subst written
    exact sound.allocated.create created rfl rfl rfl rfl rfl
  have holds := sound.held key intent found pending
  have change : AccountsChange world.store.accounts final.accounts := by
    rw [written]
    exact .inserted id _ (inserted_of_created created)
  have here : final.accounts.find id = some (createdRow now new hash) := by
    rw [written]
    exact Table.find_insert_self _ _ _
  have others : forall other, other ≠ id ->
      final.accounts.find other = world.store.accounts.find other := by
    intro other different
    rw [written]
    exact Table.find_insert_of_ne _ different
  have intents : final.virtualCreate =
      world.store.virtualCreate.insert key { intent with accountId := some id } := by
    rw [written]
    rfl
  have children : forall owner, final.childrenTotal owner =
      world.store.childrenTotal owner + childWeight owner (createdRow now new hash) := by
    intro owner
    rw [written]
    exact Table.total_insert_of_absent _ _ created.absent
  have reserved : forall owner, final.pendingTotal owner none + intentWeight owner intent =
      world.store.pendingTotal owner none := by
    intro owner
    have completed : final.pendingTotal owner none = world.store.pendingTotal owner (some key) := by
      rw [written]
      exact pendingTotal_complete world.store key intent id owner
    rw [completed, pendingTotal_some, pendingTotal_eq]
    exact Table.total_erase (fun _ intent => intentWeight owner intent) found
  have limit : final.limitOf id (createdRow now new hash) = intent.quota := by
    refine limitOf_created sound.allocated created (by rw [written]) (by rw [written]) (children id) ?_ ?_
    · have sum := reserved (.account id)
      omega
    · rcases drawn with ⟨user, owner, _, _, quota⟩ | admin
      · exact Or.inl ⟨user, quota⟩
      · exact Or.inr admin
  refine ⟨allocated, ?_, ?_, ?_, sound.unique.change change, ?_, ?_, sound.off⟩
  · intro other row amount rowFound virtual unpurged applied
    by_cases same : other = id
    · subst same
      cases here.symm.trans rowFound
      rw [limit]
      exact holds.limit amount (uid ▸ applied)
    · rw [others other same] at rowFound
      have purgedSame : final.virtualPurged = world.store.virtualPurged := by rw [written]
      rw [purgedSame] at unpurged
      refine sound.covered_of_le rowFound (.refl row) virtual unpurged ?_ applied
      refine limitOf_mono rfl rfl (by rw [written]) ?_ ?_
      · rw [written]
        cases budget with
        | none => rfl
        | some drawn => exact Table.find_insert_of_ne _ same
      · have sum := children other
        have left := reserved (.account other)
        have traded : childWeight other (createdRow now new hash) ≤
            intentWeight (.account other) intent := by
          rcases drawn with ⟨_, owner, owned, reservedBy, quota⟩ | ⟨_, unowned, _⟩
          · by_cases mine : other = owner
            · subst mine
              have taken : intentWeight (.account other) intent = intent.quota :=
                if_pos ⟨reservedBy, pending⟩
              have given : childWeight other (createdRow now new hash) = intent.quota := by
                unfold childWeight
                change (if new.ownerAdminId = some other then new.quotaBytes.getD 0 else 0) = _
                rw [if_pos owned, quota]
                rfl
              omega
            · have given : childWeight other (createdRow now new hash) = 0 := by
                apply if_neg
                change new.ownerAdminId ≠ some other
                rw [owned]
                exact fun equal => mine (Option.some.inj equal).symm
              omega
          · have given : childWeight other (createdRow now new hash) = 0 :=
              childWeight_of_unowned unowned other
            omega
        change final.childrenTotal other + final.pendingTotal (.account other) none ≤ _
        omega
  · intro other second secondFound secondPending
    have apart : other ≠ key := by
      intro same
      rw [same, intents, Table.find_insert_self] at secondFound
      cases secondFound
      cases secondPending
    rw [intents, Table.find_insert_of_ne _ apart] at secondFound
    have second := sound.held other second secondFound secondPending
    refine ⟨?_, ?_, second.limit⟩
    · intro account row rowFound virtual sameUid
      by_cases same : account = id
      · subst same
        cases here.symm.trans rowFound
        exact apart (second.alone key intent found pending (uid.symm.trans sameUid)).symm
      · rw [others account same] at rowFound
        exact second.unowned account row rowFound virtual sameUid
    · intro third intent thirdFound thirdPending sameUid
      have different : third ≠ key := by
        intro same
        rw [same, intents, Table.find_insert_self] at thirdFound
        cases thirdFound
        cases thirdPending
      rw [intents, Table.find_insert_of_ne _ different] at thirdFound
      exact second.alone third intent thirdFound thirdPending sameUid
  · intro other amount applied
    rcases sound.known other amount applied with ⟨account, row, rowFound, virtual, same⟩ |
      ⟨third, second, secondFound, same⟩ | gone
    · rcases change.kept rowFound with ⟨kept, keptFound, continues⟩
      exact Or.inl ⟨account, kept, keptFound, continues.kind.trans virtual,
        continues.uid.trans same⟩
    · by_cases mine : third = key
      · subst mine
        cases found.symm.trans secondFound
        refine Or.inr (Or.inl ⟨third, { intent with accountId := some id }, ?_, same⟩)
        rw [intents]
        exact Table.find_insert_self _ _ _
      · refine Or.inr (Or.inl ⟨third, second, ?_, same⟩)
        rw [intents]
        exact (Table.find_insert_of_ne _ mine).trans secondFound
    · refine Or.inr (Or.inr ?_)
      rw [written]
      exact gone
  · intro account row owner rowFound owned
    have lifted : forall ownerRow, world.store.accounts.find owner = some ownerRow ->
        (ownerRow.kind = .virtual -> ownerRow.role = .admin) ->
        ∃ now, final.accounts.find owner = some now ∧ (now.kind = .virtual -> now.role = .admin) := by
      intro ownerRow ownerFound admin
      rcases change.kept ownerFound with ⟨kept, keptFound, continues⟩
      refine ⟨kept, keptFound, ?_⟩
      intro virtual
      have before : ownerRow.kind = .virtual := continues.kind.symm.trans virtual
      exact (continues.role before).trans (admin before)
    by_cases same : account = id
    · subst same
      cases here.symm.trans rowFound
      rcases created.allocation with ⟨caller, allocation⟩
      rcases checkAllocation_ok allocation with
        ⟨unowned, _⟩ | ⟨other, _, ownedBy, _, _, _, _, ownerRow, ownerFound, admin⟩
      · cases unowned.symm.trans owned
      · cases ownedBy.symm.trans owned
        exact lifted ownerRow ownerFound (fun _ => admin)
    · rw [others account same] at rowFound
      rcases sound.owners account row owner rowFound owned with ⟨ownerRow, ownerFound, admin⟩
      exact lifted ownerRow ownerFound admin
  · intro account member
    rcases sound.taken account member with ⟨row, rowFound, read⟩
    rcases change.kept rowFound with ⟨kept, keptFound, continues⟩
    exact ⟨kept, keptFound, read.continues continues⟩

/-- A cancelled intent gives its quota back and its uid to nobody. -/
theorem cancel (sound : Bounded cfg world) {key : IntentKey} {intent : Intent}
    {retired : Table Nat Nat} (found : world.store.virtualCreate.find key = some intent)
    (retires : Retires world.store.virtualUidRetired intent.uid retired)
    (allocated : ({ world.store with
      virtualCreate := world.store.virtualCreate.erase key
      virtualUidRetired := retired }).Allocated) :
    Bounded cfg { world with store := { world.store with
      virtualCreate := world.store.virtualCreate.erase key
      virtualUidRetired := retired } } where
  allocated := allocated
  within := by
    intro id row limit rowFound virtual unpurged applied
    refine sound.covered_of_le rowFound (.refl row) virtual unpurged ?_ applied
    refine limitOf_mono rfl rfl rfl rfl ?_
    have fewer := world.store.pendingTotal_exclude_le (.account id) (some key)
    rw [pendingTotal_some] at fewer
    refine Nat.add_le_add_left ?_ _
    rw [pendingTotal_eq]
    exact fewer
  held := by
    intro other second secondFound pending
    have apart : other ≠ key := by
      intro same
      rw [same] at secondFound
      cases (Table.find_erase_self _ key).symm.trans secondFound
    have before := (Table.find_erase_of_ne apart).symm.trans secondFound
    have holds := sound.held other second before pending
    refine ⟨holds.unowned, ?_, holds.limit⟩
    intro third intent thirdFound
    have different : third ≠ key := by
      intro same
      rw [same] at thirdFound
      cases (Table.find_erase_self _ key).symm.trans thirdFound
    exact holds.alone third intent ((Table.find_erase_of_ne different).symm.trans thirdFound)
  known := by
    intro uid limit applied
    rcases sound.known uid limit applied with account | ⟨other, second, secondFound, same⟩ | gone
    · exact Or.inl account
    · by_cases mine : other = key
      · subst mine
        cases found.symm.trans secondFound
        exact Or.inr (Or.inr (same ▸ retires.retired))
      · exact Or.inr (Or.inl ⟨other, second, (Table.find_erase_of_ne mine).trans secondFound, same⟩)
    · exact Or.inr (Or.inr (retires.kept uid gone))
  unique := sound.unique
  owners := sound.owners
  taken := sound.taken
  off := sound.off

theorem recordPurgeIntent (sound : Bounded cfg world) (env : Environment) {now : Nat} {id : Uuid}
    {final : Store} (done : world.store.recordPurgeIntent now id = .ok ((), final)) :
    Bounded cfg { world with store := final } := by
  have applied : (StoreOp.recordPurgeIntent now id).apply env world.store = .ok final :=
    congrArg StoreOp.committed done
  have allocated := sound.allocated.apply applied
  rcases recordPurgeIntent_ok done with ⟨uid, intents, retired, retires, written⟩
  subst written
  refine sound.advance allocated .same (fun _ new newFound _ => ⟨new, newFound⟩) rfl retires.kept ?_
  intro key old new limit oldFound newFound continues virtual unpurged enforced
  cases oldFound.symm.trans newFound
  exact sound.covered_of_le oldFound continues virtual unpurged (Nat.le_refl _) enforced

/-- A purged account is out of the invariant, and its owner gets its quota
back. -/
theorem purge (sound : Bounded cfg world) (env : Environment) {now uid : Nat} {id : Uuid}
    {final : Store} (done : world.store.purge now id uid = .ok ((), final)) :
    Bounded cfg { world with store := final } := by
  have applied : (StoreOp.purge now id uid).apply env world.store = .ok final :=
    congrArg StoreOp.committed done
  have allocated := sound.allocated.apply applied
  have change := StoreOp.apply_accounts applied
  rcases purge_ok done with ⟨_, _, retired, retires, written⟩
  have others : forall key, key ≠ id ->
      final.accounts.find key = world.store.accounts.find key := by
    intro key different
    rw [written]
    exact Table.find_modify_of_ne _ different
  refine sound.advance allocated change ?_ (by rw [written]; rfl) ?_ ?_
  · intro key new newFound _
    by_cases here : key = id
    · subst here
      rw [written] at newFound
      rcases Option.map_eq_some_iff.mp ((Table.find_modify_self _).symm.trans newFound) with
        ⟨row, present, _⟩
      exact ⟨row, present⟩
    · exact ⟨new, (others key here).symm.trans newFound⟩
  · rw [written]
    exact retires.kept
  · intro key old new limit oldFound newFound continues virtual unpurged enforced
    by_cases here : key = id
    · rw [here, written] at unpurged
      cases (Table.find_insert_self _ _ _).symm.trans unpurged
    · have purgedBefore : world.store.virtualPurged.find key = none := by
        rw [written] at unpurged
        exact (Table.find_insert_of_ne _ here).symm.trans unpurged
      rw [others key here] at newFound
      cases oldFound.symm.trans newFound
      refine sound.covered_of_le oldFound continues virtual purgedBefore ?_ enforced
      refine limitOf_mono rfl rfl (by rw [written]; rfl) (by rw [written]; rfl) ?_
      have fewer := childrenTotal_purge world.store id key
      have childrenNow : final.childrenTotal key = (world.store.updateRow .purge id).childrenTotal key := by
        rw [written]
        rfl
      have pendingNow : final.pendingTotal (.account key) none =
          world.store.pendingTotal (.account key) none := by
        rw [written]
        rfl
      omega

end Bounded

end TealDrive
