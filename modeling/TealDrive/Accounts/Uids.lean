import TealDrive.Library.Guarantees
import TealDrive.Accounts.NativeLimits

namespace TealDrive

open Outcome
open Store

/-!
# Whose a uid is

A virtual uid is first bound to an intent, then to the account the intent
becomes, and the row of the account is never removed.  A cancelled intent leaves
its uid retired.  So a uid that was bound once is bound to the same tenant for
ever, or to nobody any more.

Linux accounts bring a uid of their own; the allocator looks at them, and
otherwise they are left out of the invariant.
-/

/-- Who a uid can be bound to. -/
inductive Tenant where
  | account (id : Uuid)
  | intent (key : IntentKey)
deriving DecidableEq

namespace Store

def Binds (store : Store) (uid : Nat) : Tenant -> Prop
  | .account id => ∃ row, store.accounts.find id = some row ∧ row.uid = uid
  | .intent key => ∃ intent, store.virtualCreate.find key = some intent ∧ intent.uid = uid

/-- An intent and the account it became are one tenant. -/
def SameTenant (store : Store) : Tenant -> Tenant -> Prop
  | .account first, .account second => first = second
  | .intent first, .intent second => first = second
  | .account id, .intent key | .intent key, .account id =>
      ∃ intent, store.virtualCreate.find key = some intent ∧ intent.accountId = some id

/-- Retired, and bound to nobody. -/
def Spent (store : Store) (uid : Nat) : Prop :=
  (store.virtualUidRetired.find uid).isSome = true ∧ forall tenant, ¬ store.Binds uid tenant

/-- Retired, and bound to no virtual account and to no intent. -/
structure Vacant (store : Store) (uid : Nat) : Prop where
  retired : (store.virtualUidRetired.find uid).isSome = true
  accounts : forall id row, store.accounts.find id = some row -> row.kind = .virtual ->
    row.uid ≠ uid
  intents : forall key intent, store.virtualCreate.find key = some intent -> intent.uid ≠ uid

end Store

/-- The numbers the allocator may hand out. -/
def AppConfig.virtualUid (cfg : AppConfig) (uid : Nat) : Prop :=
  cfg.webAccounts.virtualMinUid ≤ uid ∧ uid ≤ cfg.webAccounts.virtualMaxUid

/-- Who has which virtual uid, at one moment. -/
structure Leased (cfg : AppConfig) (store : Store) : Prop where
  unique : UniqueUids store.accounts
  single : forall key other intent second, store.virtualCreate.find key = some intent ->
    store.virtualCreate.find other = some second -> intent.uid = second.uid -> key = other
  pending : forall key intent, store.virtualCreate.find key = some intent ->
    intent.accountId = none -> forall id row, store.accounts.find id = some row ->
      row.kind = .virtual -> row.uid ≠ intent.uid
  completed : forall key intent id, store.virtualCreate.find key = some intent ->
    intent.accountId = some id ->
      ∃ row, store.accounts.find id = some row ∧ row.kind = .virtual ∧ row.uid = intent.uid
  origin : forall id row, store.accounts.find id = some row -> row.kind = .virtual ->
    ∃ key intent, store.virtualCreate.find key = some intent ∧ intent.accountId = some id
  range : forall key intent, store.virtualCreate.find key = some intent -> cfg.virtualUid intent.uid

/-- What lies between an earlier store and a later one. -/
structure UidsKept (store later : Store) : Prop where
  accounts : forall id row, store.accounts.find id = some row ->
    ∃ new, later.accounts.find id = some new ∧ new.uid = row.uid ∧ new.kind = row.kind
  intents : forall key intent, store.virtualCreate.find key = some intent ->
    (∃ new, later.virtualCreate.find key = some new ∧ new.uid = intent.uid ∧
      forall id, intent.accountId = some id -> new.accountId = some id) ∨ later.Vacant intent.uid
  vacant : forall uid, store.Vacant uid -> later.Vacant uid

namespace UidsKept

theorem refl (store : Store) : UidsKept store store where
  accounts := fun _ row found => ⟨row, found, rfl, rfl⟩
  intents := fun _ intent found => Or.inl ⟨intent, found, rfl, fun _ => id⟩
  vacant := fun _ => id

theorem trans {store middle later : Store} (first : UidsKept store middle)
    (second : UidsKept middle later) : UidsKept store later where
  accounts := by
    intro id row found
    rcases first.accounts id row found with ⟨between, present, uid, kind⟩
    rcases second.accounts id between present with ⟨new, finally_, sameUid, sameKind⟩
    exact ⟨new, finally_, sameUid.trans uid, sameKind.trans kind⟩
  intents := by
    intro key intent found
    rcases first.intents key intent found with ⟨between, present, uid, completed⟩ | gone
    · rcases second.intents key between present with ⟨new, finally_, sameUid, still⟩ | gone
      · exact Or.inl ⟨new, finally_, sameUid.trans uid, fun id given => still id (completed id given)⟩
      · rw [uid] at gone
        exact Or.inr gone
    · exact Or.inr (second.vacant _ gone)
  vacant := fun uid gone => second.vacant uid (first.vacant uid gone)

end UidsKept

/-! ## Statements that bind no uid -/

/-- Neither an intent nor a virtual account is new, and none is lost. -/
structure Undisturbed (store later : Store) : Prop where
  change : AccountsChange store.accounts later.accounts
  origin : forall id new, later.accounts.find id = some new -> new.kind = .virtual ->
    ∃ row, store.accounts.find id = some row
  intents : later.virtualCreate = store.virtualCreate
  retired : forall uid, (store.virtualUidRetired.find uid).isSome = true ->
    (later.virtualUidRetired.find uid).isSome = true

namespace Undisturbed

variable {store later : Store}

/-- A virtual account of the later store had its uid before. -/
theorem before (same : Undisturbed store later) {id : Uuid} {new : AccountRow}
    (found : later.accounts.find id = some new) (virtual : new.kind = .virtual) :
    ∃ row, store.accounts.find id = some row ∧ row.kind = .virtual ∧ row.uid = new.uid := by
  rcases same.origin id new found virtual with ⟨row, present⟩
  rcases same.change.kept present with ⟨kept, keptFound, continues⟩
  cases keptFound.symm.trans found
  exact ⟨row, present, continues.kind.symm.trans virtual, continues.uid.symm⟩

theorem kept (same : Undisturbed store later) : UidsKept store later where
  accounts := by
    intro id row found
    rcases same.change.kept found with ⟨new, present, continues⟩
    exact ⟨new, present, continues.uid, continues.kind⟩
  intents := by
    intro key intent found
    rw [same.intents]
    exact Or.inl ⟨intent, found, rfl, fun _ => id⟩
  vacant := by
    intro uid gone
    refine ⟨same.retired uid gone.retired, ?_, ?_⟩
    · intro id new found virtual equal
      rcases same.before found virtual with ⟨row, present, kind, uidSame⟩
      exact gone.accounts id row present kind (uidSame.trans equal)
    · rw [same.intents]
      exact gone.intents

theorem leased (same : Undisturbed store later) {cfg : AppConfig} (sound : Leased cfg store) :
    Leased cfg later where
  unique := sound.unique.change same.change
  single := by
    rw [same.intents]
    exact sound.single
  pending := by
    rw [same.intents]
    intro key intent found open_ id new newFound virtual equal
    rcases same.before newFound virtual with ⟨row, present, kind, uid⟩
    exact sound.pending key intent found open_ id row present kind (uid.trans equal)
  completed := by
    rw [same.intents]
    intro key intent id found given
    rcases sound.completed key intent id found given with ⟨row, present, kind, uid⟩
    rcases same.change.kept present with ⟨new, newFound, continues⟩
    exact ⟨new, newFound, continues.kind.trans kind, continues.uid.trans uid⟩
  origin := by
    rw [same.intents]
    intro id new found virtual
    rcases same.before found virtual with ⟨row, present, kind, _⟩
    exact sound.origin id row present kind
  range := by
    rw [same.intents]
    exact sound.range

theorem refl (store : Store) : Undisturbed store store :=
  ⟨.same, fun _ new found _ => ⟨new, found⟩, rfl, fun _ => id⟩

/-- Statements that leave the three tables alone. -/
theorem of_same (accounts : later.accounts = store.accounts)
    (intents : later.virtualCreate = store.virtualCreate)
    (retired : later.virtualUidRetired = store.virtualUidRetired) : Undisturbed store later := by
  refine ⟨accounts ▸ .same, ?_, intents, ?_⟩
  · rw [accounts]
    exact fun _ new found _ => ⟨new, found⟩
  · rw [retired]
    exact fun _ => id

theorem of_quiet (rows : QuietChange store.accounts later.accounts)
    (tables : StoreOp.SameTables store later) : Undisturbed store later := by
  refine ⟨rows.accountsChange, fun _ _ => rows.origin, tables.intents, ?_⟩
  rw [tables.retired]
  exact fun _ => id

end Undisturbed

/-! ## Statements that bind a uid or let it go -/

namespace Leased

variable {cfg : AppConfig} {store later : Store}

theorem initial (cfg : AppConfig) (dummyPasswordHash : Text) :
    Leased cfg (Store.initial dummyPasswordHash) where
  unique := by
    intro id other row second found
    cases found
  single := by
    intro key other intent second found
    cases found
  pending := by
    intro key intent found
    cases found
  completed := by
    intro key intent id found
    cases found
  origin := by
    intro id row found
    cases found
  range := by
    intro key intent found
    cases found

section Reserving

variable {key : IntentKey} {intent : Intent}

theorem reserve_kept (absent : store.virtualCreate.find key = none)
    (fresh : ¬ store.Known intent.uid) :
    UidsKept store { store with virtualCreate := store.virtualCreate.insert key intent } where
  accounts := fun _ row found => ⟨row, found, rfl, rfl⟩
  intents := by
    intro other second found
    have apart : other ≠ key := by
      intro same
      rw [same, absent] at found
      cases found
    exact Or.inl ⟨second, (Table.find_insert_of_ne _ apart).trans found, rfl, fun _ => id⟩
  vacant := by
    intro uid gone
    refine ⟨gone.retired, gone.accounts, ?_⟩
    intro other second found equal
    by_cases same : other = key
    · subst same
      cases (Table.find_insert_self _ _ _).symm.trans found
      rw [← equal] at gone
      exact fresh (Or.inr (Or.inr gone.retired))
    · exact gone.intents other second ((Table.find_insert_of_ne _ same).symm.trans found) equal

/-- An intent is recorded for a uid that nobody has or had. -/
theorem reserve (sound : Leased cfg store) (absent : store.virtualCreate.find key = none)
    (fresh : ¬ store.Known intent.uid) (open_ : intent.accountId = none)
    (granted : cfg.virtualUid intent.uid) :
    Leased cfg { store with virtualCreate := store.virtualCreate.insert key intent } := by
  have earlier : forall {other second}, other ≠ key ->
      (store.virtualCreate.insert key intent).find other = some second ->
        store.virtualCreate.find other = some second :=
    fun apart found => (Table.find_insert_of_ne _ apart).symm.trans found
  have own : forall {second}, (store.virtualCreate.insert key intent).find key = some second ->
      second = intent :=
    fun found => (Option.some.inj ((Table.find_insert_self _ _ _).symm.trans found)).symm
  have other_uid : forall {other second}, store.virtualCreate.find other = some second ->
      second.uid ≠ intent.uid :=
    fun found equal => fresh (Or.inr (Or.inl ⟨_, _, found, equal⟩))
  refine ⟨sound.unique, ?_, ?_, ?_, ?_, ?_⟩
  · intro first second one two oneFound twoFound equal
    by_cases here : first = key
    · by_cases there : second = key
      · exact here.trans there.symm
      · rw [here] at oneFound
        rw [own oneFound] at equal
        exact absurd equal.symm (other_uid (earlier there twoFound))
    · by_cases there : second = key
      · rw [there] at twoFound
        rw [own twoFound] at equal
        exact absurd equal (other_uid (earlier here oneFound))
      · exact sound.single first second one two (earlier here oneFound) (earlier there twoFound) equal
  · intro other second found pending id row present virtual equal
    by_cases same : other = key
    · rw [same] at found
      rw [own found] at equal
      exact fresh (Or.inl ⟨id, row, present, virtual, equal⟩)
    · exact sound.pending other second (earlier same found) pending id row present virtual equal
  · intro other second id found given
    by_cases same : other = key
    · rw [same] at found
      rw [own found, open_] at given
      cases given
    · exact sound.completed other second id (earlier same found) given
  · intro id row present virtual
    rcases sound.origin id row present virtual with ⟨other, second, found, given⟩
    have apart : other ≠ key := by
      intro same
      rw [same, absent] at found
      cases found
    exact ⟨other, second, (Table.find_insert_of_ne _ apart).trans found, given⟩
  · intro other second found
    by_cases same : other = key
    · rw [same] at found
      rw [own found]
      exact granted
    · exact sound.range other second (earlier same found)

end Reserving

section Completing

variable {key : IntentKey} {intent : Intent} {id : Uuid} {row : AccountRow}

theorem complete_kept (found : store.virtualCreate.find key = some intent)
    (open_ : intent.accountId = none) (absent : store.accounts.find id = none)
    (uid : row.uid = intent.uid) (accounts : later.accounts = store.accounts.insert id row)
    (intents : later.virtualCreate =
      store.virtualCreate.insert key { intent with accountId := some id })
    (retired : later.virtualUidRetired = store.virtualUidRetired) : UidsKept store later where
  accounts := by
    intro other present located
    have apart : other ≠ id := by
      intro same
      rw [same, absent] at located
      cases located
    rw [accounts, Table.find_insert_of_ne _ apart]
    exact ⟨present, located, rfl, rfl⟩
  intents := by
    intro other second located
    left
    rw [intents]
    by_cases same : other = key
    · subst same
      cases found.symm.trans located
      refine ⟨{ intent with accountId := some id }, Table.find_insert_self _ _ _, rfl, ?_⟩
      intro account given
      rw [open_] at given
      cases given
    · exact ⟨second, (Table.find_insert_of_ne _ same).trans located, rfl, fun _ same => same⟩
  vacant := by
    intro free gone
    refine ⟨retired.symm ▸ gone.retired, ?_, ?_⟩
    · rw [accounts]
      intro other present located virtual equal
      by_cases same : other = id
      · subst same
        cases (Table.find_insert_self _ _ _).symm.trans located
        exact gone.intents key intent found (uid.symm.trans equal)
      · exact gone.accounts other present ((Table.find_insert_of_ne _ same).symm.trans located)
          virtual equal
    · rw [intents]
      intro other second located equal
      by_cases same : other = key
      · subst same
        cases (Table.find_insert_self _ _ _).symm.trans located
        exact gone.intents other intent found equal
      · exact gone.intents other second ((Table.find_insert_of_ne _ same).symm.trans located) equal

/-- A pending intent becomes an account. -/
theorem complete (sound : Leased cfg store) (found : store.virtualCreate.find key = some intent)
    (open_ : intent.accountId = none) (new : Inserted store.accounts id row)
    (virtual : row.kind = .virtual) (uid : row.uid = intent.uid)
    (accounts : later.accounts = store.accounts.insert id row)
    (intents : later.virtualCreate =
      store.virtualCreate.insert key { intent with accountId := some id }) :
    Leased cfg later := by
  have earlier : forall {other second}, other ≠ key -> later.virtualCreate.find other = some second ->
      store.virtualCreate.find other = some second := by
    intro other second apart located
    rw [intents, Table.find_insert_of_ne _ apart] at located
    exact located
  have own : forall {second}, later.virtualCreate.find key = some second ->
      second = { intent with accountId := some id } := by
    intro second located
    rw [intents, Table.find_insert_self] at located
    exact (Option.some.inj located).symm
  have older : forall {other present}, other ≠ id -> later.accounts.find other = some present ->
      store.accounts.find other = some present := by
    intro other present apart located
    rw [accounts, Table.find_insert_of_ne _ apart] at located
    exact located
  have stays : forall {other present}, store.accounts.find other = some present ->
      later.accounts.find other = some present := by
    intro other present located
    have apart : other ≠ id := by
      intro same
      rw [same, new.absent] at located
      cases located
    rw [accounts, Table.find_insert_of_ne _ apart]
    exact located
  have here : later.accounts.find id = some row := by
    rw [accounts]
    exact Table.find_insert_self _ _ _
  -- Every intent of the later store had the same uid before.
  have before : forall {other second}, later.virtualCreate.find other = some second ->
      ∃ first, store.virtualCreate.find other = some first ∧ first.uid = second.uid := by
    intro other second located
    by_cases same : other = key
    · subst same
      rw [own located]
      exact ⟨intent, found, rfl⟩
    · exact ⟨second, earlier same located, rfl⟩
  refine ⟨?_, ?_, ?_, ?_, ?_, ?_⟩
  · refine sound.unique.change ?_
    rw [accounts]
    exact .inserted id row new
  · intro first second one two oneFound twoFound equal
    rcases before oneFound with ⟨one', oneBefore, oneUid⟩
    rcases before twoFound with ⟨two', twoBefore, twoUid⟩
    exact sound.single first second one' two' oneBefore twoBefore
      (oneUid.trans (equal.trans twoUid.symm))
  · intro other second located pending account present presentFound kind equal
    have apart : other ≠ key := by
      intro same
      rw [same] at located
      rw [own located] at pending
      cases pending
    by_cases same : account = id
    · subst same
      cases here.symm.trans presentFound
      exact apart (sound.single other key second intent (earlier apart located) found
        (equal.symm.trans uid))
    · exact sound.pending other second (earlier apart located) pending account present
        (older same presentFound) kind equal
  · intro other second account located given
    by_cases same : other = key
    · rw [same] at located
      rw [own located] at given ⊢
      cases given
      exact ⟨row, here, virtual, uid⟩
    · rcases sound.completed other second account (earlier same located) given with
        ⟨present, presentFound, rest⟩
      exact ⟨present, stays presentFound, rest⟩
  · intro account present presentFound kind
    by_cases same : account = id
    · subst same
      refine ⟨key, { intent with accountId := some account }, ?_, rfl⟩
      rw [intents]
      exact Table.find_insert_self _ _ _
    · rcases sound.origin account present (older same presentFound) kind with
        ⟨other, second, located, given⟩
      have apart : other ≠ key := by
        intro equal
        rw [equal, found] at located
        cases located
        rw [open_] at given
        cases given
      refine ⟨other, second, ?_, given⟩
      rw [intents]
      exact (Table.find_insert_of_ne _ apart).trans located
  · intro other second located
    rcases before located with ⟨first, present, same⟩
    rw [← same]
    exact sound.range other first present

end Completing

section Cancelling

variable {key : IntentKey} {intent : Intent} {retired : Table Nat Nat}

theorem cancel_kept (sound : Leased cfg store)
    (found : store.virtualCreate.find key = some intent) (open_ : intent.accountId = none)
    (retires : Retires store.virtualUidRetired intent.uid retired) :
    UidsKept store { store with
      virtualCreate := store.virtualCreate.erase key, virtualUidRetired := retired } := by
  refine ⟨fun _ row present => ⟨row, present, rfl, rfl⟩, ?_, ?_⟩
  · intro other second located
    by_cases same : other = key
    · right
      rw [same, found] at located
      cases located
      refine ⟨retires.retired, sound.pending key intent found open_, ?_⟩
      intro third present presentFound equal
      rcases Table.of_find_erase presentFound with ⟨apart, before⟩
      exact apart (sound.single third key present intent before found equal)
    · exact Or.inl ⟨second, (Table.find_erase_of_ne same).trans located, rfl, fun _ => id⟩
  · intro uid gone
    refine ⟨retires.kept uid gone.retired, gone.accounts, ?_⟩
    intro other second located
    exact gone.intents other second (Table.of_find_erase located).2

/-- A pending intent is given up. -/
theorem cancel (sound : Leased cfg store) (found : store.virtualCreate.find key = some intent)
    (open_ : intent.accountId = none) :
    Leased cfg { store with
      virtualCreate := store.virtualCreate.erase key, virtualUidRetired := retired } := by
  refine ⟨sound.unique, ?_, ?_, ?_, ?_, ?_⟩
  · intro first second one two oneFound twoFound
    exact sound.single first second one two (Table.of_find_erase oneFound).2
      (Table.of_find_erase twoFound).2
  · intro other second located
    exact sound.pending other second (Table.of_find_erase located).2
  · intro other second id located
    exact sound.completed other second id (Table.of_find_erase located).2
  · intro id row present virtual
    rcases sound.origin id row present virtual with ⟨other, second, located, given⟩
    have apart : other ≠ key := by
      intro same
      rw [same, found] at located
      cases located
      rw [open_] at given
      cases given
    exact ⟨other, second, (Table.find_erase_of_ne apart).trans located, given⟩
  · intro other second located
    exact sound.range other second (Table.of_find_erase located).2

end Cancelling

end Leased

/-! ## One tenant for ever -/

/-- No Linux account has a uid of the virtual range; `linux_policy` refuses to
enrol one. -/
def Apart (cfg : AppConfig) (store : Store) : Prop :=
  forall id row, store.accounts.find id = some row -> row.kind = .linux -> ¬ cfg.virtualUid row.uid

/-- How the tenants of two moments agree. -/
structure Consistent (cfg : AppConfig) (store later : Store) : Prop where
  /-- A uid has one tenant, then and now. -/
  tenants : forall uid first second, store.Binds uid first -> later.Binds uid second ->
    later.SameTenant first second
  /-- A uid that was bound still is, or it is retired. -/
  kept : forall uid first, store.Binds uid first ->
    (∃ second, later.Binds uid second) ∨ later.Spent uid
  /-- A retired uid of nobody stays nobody's. -/
  spent : forall uid, cfg.virtualUid uid -> store.Spent uid -> later.Spent uid

namespace Leased

variable {cfg : AppConfig} {store later : Store}

/-- A virtual uid that is vacant is nobody's. -/
theorem spent_of_vacant (apart : Apart cfg store) {uid : Nat} (range : cfg.virtualUid uid)
    (gone : store.Vacant uid) : store.Spent uid := by
  refine ⟨gone.retired, ?_⟩
  intro tenant bound
  cases tenant with
  | account id =>
      rcases bound with ⟨row, found, rfl⟩
      cases kind : row.kind with
      | linux => exact apart id row found kind range
      | virtual => exact gone.accounts id row found kind rfl
  | intent key =>
      rcases bound with ⟨intent, found, rfl⟩
      exact gone.intents key intent found rfl

theorem vacant_of_spent {uid : Nat} (gone : store.Spent uid) : store.Vacant uid where
  retired := gone.1
  accounts := fun id row found _ same => gone.2 (.account id) ⟨row, found, same⟩
  intents := fun key intent found same => gone.2 (.intent key) ⟨intent, found, same⟩

/-- At one moment, an account and an intent with one uid are one tenant. -/
theorem same_tenant (sound : Leased cfg store) (apart : Apart cfg store) {id : Uuid}
    {key : IntentKey} {row : AccountRow} {intent : Intent}
    (account : store.accounts.find id = some row)
    (found : store.virtualCreate.find key = some intent) (same : row.uid = intent.uid) :
    intent.accountId = some id := by
  have virtual : row.kind = .virtual := by
    cases kind : row.kind with
    | linux => exact absurd (same ▸ sound.range key intent found) (apart id row account kind)
    | virtual => rfl
  cases given : intent.accountId with
  | none => exact absurd same (sound.pending key intent found given id row account virtual)
  | some other =>
      rcases sound.completed key intent other found given with ⟨second, secondFound, _, uid⟩
      rw [sound.unique other id second row secondFound account (uid.trans same.symm)]

theorem consistent (before : Leased cfg store) (sound : Leased cfg later)
    (apart : Apart cfg later) (kept : UidsKept store later) : Consistent cfg store later where
  tenants := by
    intro uid first second bound bounds
    cases first with
    | account id =>
        rcases bound with ⟨row, found, rfl⟩
        rcases kept.accounts id row found with ⟨new, present, sameUid, _⟩
        cases second with
        | account other =>
            rcases bounds with ⟨third, thirdFound, same⟩
            exact sound.unique id other new third present thirdFound (sameUid.trans same.symm)
        | intent key =>
            rcases bounds with ⟨intent, intentFound, same⟩
            exact ⟨intent, intentFound,
              sound.same_tenant apart present intentFound (sameUid.trans same.symm)⟩
    | intent key =>
        rcases bound with ⟨intent, found, rfl⟩
        rcases kept.intents key intent found with ⟨new, present, sameUid, _⟩ | gone
        · cases second with
          | account id =>
              rcases bounds with ⟨row, rowFound, same⟩
              exact ⟨new, present, sound.same_tenant apart rowFound present (same.trans sameUid.symm)⟩
          | intent other =>
              rcases bounds with ⟨second, secondFound, same⟩
              exact sound.single key other new second present secondFound (sameUid.trans same.symm)
        · exact absurd bounds
            ((spent_of_vacant apart (before.range key intent found) gone).2 second)
  kept := by
    intro uid first bound
    cases first with
    | account id =>
        rcases bound with ⟨row, found, rfl⟩
        rcases kept.accounts id row found with ⟨new, present, same, _⟩
        exact Or.inl ⟨.account id, new, present, same⟩
    | intent key =>
        rcases bound with ⟨intent, found, rfl⟩
        rcases kept.intents key intent found with ⟨new, present, same, _⟩ | gone
        · exact Or.inl ⟨.intent key, new, present, same⟩
        · exact Or.inr (spent_of_vacant apart (before.range key intent found) gone)
  spent := by
    intro uid range gone
    exact spent_of_vacant apart range (kept.vacant uid (vacant_of_spent gone))

end Leased

end TealDrive
