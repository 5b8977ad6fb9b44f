import TealDrive.Accounts.Quota

namespace TealDrive

open Outcome

/-!
# Quota changes with a callback

Three transactions of the store call back before they commit, so that the
kernel's limit is lowered first.  `Store` models them with a callback that only
answers.  Here the callback also works on a world of its own, from which one can
see whether it ran and what it was told.
-/

/-- A callback: it is told a number, works on its world, and answers. -/
abbrev Hook (World : Type) : Type := Nat -> World -> Except StoreError Unit × World

namespace Store

section Hooked

variable {World Result : Type}

/-- The transaction goes on when the callback answered well. -/
def resume (write : Except StoreError (Result × Store)) :
    Except StoreError Unit × World -> Except StoreError (Result × Store) × World
  | (.error problem, after) => (.error problem, after)
  | (.ok (), after) => (write, after)

/-- A transaction that checks, calls back with what the checks computed, and
writes. -/
def hooked (checked : Except StoreError Nat) (before : Hook World)
    (write : Except StoreError (Result × Store)) (world : World) :
    Except StoreError (Result × Store) × World :=
  match checked with
  | .error problem => (.error problem, world)
  | .ok value => resume write (before value world)

def setAdminBudgetHooked (actor : Authority) (id : Uuid) (bytes : Nat)
    (beforeCommit : Hook World) (store : Store) :
    World -> Except StoreError (Unit × Store) × World :=
  hooked (store.checkBudget actor id bytes) beforeCommit
    (.ok ((), { store with adminBudgets := store.adminBudgets.insert id bytes }))

def setAdminOwnHooked (now : Nat) (actor : Authority) (id : Uuid) (bytes : Nat)
    (before : Hook World) (store : Store) : World -> Except StoreError (Unit × Store) × World :=
  hooked (do
      store.checkOwn actor id bytes
      return bytes)
    before (do
      let marked := { store with
        adminOwnQuota := store.adminOwnQuota.insert id bytes
        virtualQuotaSync := store.virtualQuotaSync.insert id () }
      let _ ← number now
      let final ← marked.execute (.touch now) id
      return ((), final))

def setChildQuotaHooked (now : Nat) (actor : Authority) (id : Uuid) (generation bytes : Nat)
    (before : Hook World) (store : Store) : World -> Except StoreError (Account × Store) × World :=
  hooked (store.checkChildQuota actor id generation bytes) before (do
    let marked := { store with virtualQuotaSync := store.virtualQuotaSync.insert id () }
    let _ ← number now
    let final ← marked.execute (.setQuota bytes now) id
    let result ← final.account id
    return (result, final))

theorem resume_outcome (write : Except StoreError (Result × Store))
    (called : Except StoreError Unit × World) :
    (resume write called).1 = called.1 >>= fun _ => write := by
  rcases called with ⟨answer, after⟩
  cases answer with
  | error problem => rfl
  | ok _ => rfl

theorem resume_world (write : Except StoreError (Result × Store))
    (called : Except StoreError Unit × World) : (resume write called).2 = called.2 := by
  rcases called with ⟨answer, after⟩
  cases answer with
  | error problem => rfl
  | ok _ => rfl

/-- The outcome is the one of a callback that only answers. -/
theorem hooked_outcome (checked : Except StoreError Nat) (before : Hook World)
    (write : Except StoreError (Result × Store)) (world : World) :
    (hooked checked before write world).1 = (do
      let value ← checked
      (before value world).1
      write) := by
  cases checked with
  | error problem => rfl
  | ok value => exact resume_outcome write (before value world)

/-- The callback runs once when the checks passed, and otherwise not at all. -/
theorem hooked_world (checked : Except StoreError Nat) (before : Hook World)
    (write : Except StoreError (Result × Store)) (world : World) :
    (hooked checked before write world).2 =
      match checked with
      | .error _ => world
      | .ok value => (before value world).2 := by
  cases checked with
  | error problem => rfl
  | ok value => exact resume_world write (before value world)

theorem hooked_ok {checked : Except StoreError Nat} {before : Hook World}
    {write : Except StoreError (Result × Store)} {world : World} {result : Result × Store}
    (done : (hooked checked before write world).1 = .ok result) :
    ∃ value, checked = .ok value ∧ (before value world).1 = .ok () := by
  rw [hooked_outcome] at done
  rcases bind_eq_ok.mp done with ⟨value, passed, called⟩
  rcases bind_eq_ok.mp called with ⟨_, agreed, _⟩
  exact ⟨value, passed, agreed⟩

theorem hooked_of_declined {checked : Except StoreError Nat} {before : Hook World}
    {write : Except StoreError (Result × Store)} {world : World} {value : Nat}
    {problem : StoreError} (passed : checked = .ok value)
    (declined : (before value world).1 = .error problem) :
    (hooked checked before write world).1 = .error problem := by
  subst passed
  rw [hooked_outcome]
  change ((before value world).1 >>= fun _ => write) = _
  rw [declined]
  rfl

end Hooked

end Store

/-! ## The three changes -/

inductive QuotaChange where
  | setAdminBudget (actor : Authority) (id : Uuid) (bytes : Nat)
  | setAdminOwn (now : Nat) (actor : Authority) (id : Uuid) (bytes : Nat)
  | setChildQuota (now : Nat) (actor : Authority) (id : Uuid) (generation bytes : Nat)

namespace QuotaChange

variable {World : Type}

/-- The checks of a change, and the number its callback is told. -/
def check : QuotaChange -> Store -> Except StoreError Nat
  | .setAdminBudget actor id bytes, store => store.checkBudget actor id bytes
  | .setAdminOwn _ actor id bytes, store => do
      store.checkOwn actor id bytes
      return bytes
  | .setChildQuota _ actor id generation bytes, store =>
      store.checkChildQuota actor id generation bytes

/-- The store to commit, or the failure, and the world of the callback. -/
def runWith (before : Hook World) (store : Store) (world : World) :
    QuotaChange -> Except StoreError Store × World
  | .setAdminBudget actor id bytes =>
      let (outcome, after) := store.setAdminBudgetHooked actor id bytes before world
      (StoreOp.committed outcome, after)
  | .setAdminOwn now actor id bytes =>
      let (outcome, after) := store.setAdminOwnHooked now actor id bytes before world
      (StoreOp.committed outcome, after)
  | .setChildQuota now actor id generation bytes =>
      let (outcome, after) := store.setChildQuotaHooked now actor id generation bytes before world
      (StoreOp.committed outcome, after)

/-- The tables after a change; a failure rolls the transaction back. -/
def tablesAfter (before : Hook World) (store : Store) (world : World) (change : QuotaChange) :
    Store :=
  match (change.runWith before store world).1 with
  | .ok final => final
  | .error _ => store

/-- The same change with a callback that only answers. -/
def op (before : Nat -> Except StoreError Unit) : QuotaChange -> StoreOp
  | .setAdminBudget actor id bytes => .setAdminBudgetWith actor id bytes before
  | .setAdminOwn now actor id bytes => .setAdminOwnWith now actor id bytes before
  | .setChildQuota now actor id generation bytes =>
      .setChildQuotaWith now actor id generation bytes before

/-- The administrator whose own files a change bears on. -/
def affected (store : Store) : QuotaChange -> Option Uuid
  | .setAdminBudget _ id _ => some id
  | .setAdminOwn _ _ id _ => some id
  | .setChildQuota _ _ id _ _ => (store.accounts.find id).bind (fun row => row.ownerAdminId)

/-- A change ends as the operation whose callback gives the same answers. -/
theorem runWith_outcome (env : Environment) (before : Hook World) (store : Store) (world : World)
    (change : QuotaChange) :
    (change.runWith before store world).1 =
      (change.op (fun value => (before value world).1)).apply env store := by
  cases change with
  | setAdminBudget actor id bytes => exact congrArg StoreOp.committed (Store.hooked_outcome ..)
  | setAdminOwn now actor id bytes =>
      refine (congrArg StoreOp.committed (Store.hooked_outcome ..)).trans ?_
      change _ = StoreOp.committed (store.setAdminOwnWith ..)
      unfold Store.setAdminOwnWith
      cases store.checkOwn actor id bytes with
      | error problem => rfl
      | ok _ => rfl
  | setChildQuota now actor id generation bytes =>
      exact congrArg StoreOp.committed (Store.hooked_outcome ..)

theorem runWith_world (before : Hook World) (store : Store) (world : World)
    (change : QuotaChange) :
    (change.runWith before store world).2 =
      match change.check store with
      | .error _ => world
      | .ok value => (before value world).2 := by
  cases change with
  | setAdminBudget actor id bytes => exact Store.hooked_world ..
  | setAdminOwn now actor id bytes => exact Store.hooked_world ..
  | setChildQuota now actor id generation bytes => exact Store.hooked_world ..

theorem runWith_of_refused {before : Hook World} {store : Store} {world : World}
    {change : QuotaChange} {problem : StoreError} (refused : change.check store = .error problem) :
    change.runWith before store world = (.error problem, world) := by
  cases change with
  | setAdminBudget actor id bytes =>
      change store.checkBudget actor id bytes = _ at refused
      simp only [runWith, Store.setAdminBudgetHooked, Store.hooked, refused]
      rfl
  | setAdminOwn now actor id bytes =>
      change (do store.checkOwn actor id bytes; return bytes) = _ at refused
      simp only [runWith, Store.setAdminOwnHooked, Store.hooked, refused]
      rfl
  | setChildQuota now actor id generation bytes =>
      change store.checkChildQuota actor id generation bytes = _ at refused
      simp only [runWith, Store.setChildQuotaHooked, Store.hooked, refused]
      rfl

theorem runWith_of_declined {before : Hook World} {store : Store} {world : World}
    {change : QuotaChange} {value : Nat} {problem : StoreError}
    (checked : change.check store = .ok value) (declined : (before value world).1 = .error problem) :
    (change.runWith before store world).1 = .error problem := by
  cases change with
  | setAdminBudget actor id bytes =>
      exact congrArg StoreOp.committed (Store.hooked_of_declined checked declined)
  | setAdminOwn now actor id bytes =>
      exact congrArg StoreOp.committed (Store.hooked_of_declined checked declined)
  | setChildQuota now actor id generation bytes =>
      exact congrArg StoreOp.committed (Store.hooked_of_declined checked declined)

/-- A commit needs the checks and a callback that agreed. -/
theorem runWith_ok {before : Hook World} {store final : Store} {world : World}
    {change : QuotaChange} (done : (change.runWith before store world).1 = .ok final) :
    ∃ value, change.check store = .ok value ∧ (before value world).1 = .ok () := by
  cases change with
  | setAdminBudget actor id bytes =>
      rcases StoreOp.committed_eq_ok done with ⟨result, done⟩
      exact Store.hooked_ok done
  | setAdminOwn now actor id bytes =>
      rcases StoreOp.committed_eq_ok done with ⟨result, done⟩
      exact Store.hooked_ok done
  | setChildQuota now actor id generation bytes =>
      rcases StoreOp.committed_eq_ok done with ⟨result, done⟩
      exact Store.hooked_ok done

/-- What the checks establish: who asks, about which account and generation,
and that the allocations stay covered. -/
def Permitted (store : Store) : QuotaChange -> Prop
  | .setAdminBudget actor id bytes =>
      actor = .root ∧
        (∃ row, store.accounts.find id = some row ∧ row.role = .admin ∧ row.status = .active) ∧
        store.childrenTotal id + store.pendingTotal (.account id) none + store.ownOf id ≤ bytes ∧
        store.budgetsTotal - store.budgetOf id + bytes + store.pendingTotal .root none ≤
          store.poolLimit
  | .setAdminOwn _ actor id bytes =>
      actor = .root ∧ 0 < bytes ∧
        (∃ row, store.accounts.find id = some row ∧ row.kind = .virtual ∧ row.role = .admin ∧
          row.status = .active) ∧
        store.childrenTotal id + store.pendingTotal (.account id) none + bytes ≤ store.budgetOf id
  | .setChildQuota _ actor id generation bytes =>
      0 < bytes ∧ ∃ row owner, store.accounts.find id = some row ∧ row.kind = .virtual ∧
        row.role = .user ∧ row.status ≠ .deleted ∧ row.generation = generation ∧
        row.ownerAdminId = some owner ∧
        (actor = .root ∨ ∃ adminRow, Store.Caller store actor owner adminRow) ∧
        bytes + store.childrenTotal owner + store.pendingTotal (.account owner) none +
          store.ownOf owner ≤ store.budgetOf owner + row.quotaBytes.getD 0

theorem check_permitted {store : Store} (sound : store.Allocated) {change : QuotaChange}
    {value : Nat} (checked : change.check store = .ok value) : change.Permitted store := by
  cases change with
  | setAdminBudget actor id bytes =>
      rcases bind_eq_ok.mp checked with ⟨_, root, _⟩
      rcases Store.checkBudget_ok checked with ⟨target, _, covers, fits, _⟩
      have part := store.budgetOf_le_total id
      have covered := sound.pool
      have bounded := sound.bounded
      rw [Store.sub64_of_le part (by omega), Store.sub64_of_le (by omega) bounded,
        Store.sub64_of_le (by omega) (by omega)] at fits
      exact ⟨bne_eq_false_iff_eq.mp (refuse_eq_ok.mp root), target, covers, by omega⟩
  | setAdminOwn now actor id bytes =>
      rcases bind_eq_ok.mp checked with ⟨_, accepted, _⟩
      rcases Store.checkOwn_ok accepted with ⟨root, positive, _, target, fits⟩
      have covered := sound.budget id
      have bounded := sound.budget_le_max id
      rw [Store.sub64_of_le (by omega) bounded, Store.sub64_of_le (by omega) (by omega)] at fits
      exact ⟨root, positive, target, by omega⟩
  | setChildQuota now actor id generation bytes =>
      rcases Store.checkChildQuota_ok checked with ⟨row, owner, found, kind, role, alive, current,
        owned, allowed⟩
      rcases Store.checkChildQuota_fits checked found owned with ⟨positive, _⟩
      rcases sound.childQuota checked found owned with ⟨_, room, _⟩
      exact ⟨positive, row, owner, found, kind, role, alive, current, owned, allowed, room⟩

/-! ## What the callback was told -/

/-- The number told is the administrator's own quota in the committed store, or
what the committed budget has left. -/
theorem told_eq {env : Environment} {before : Nat -> Except StoreError Unit}
    {store final : Store} (sound : store.Allocated) {change : QuotaChange} {value : Nat}
    {admin : Uuid} (checked : change.check store = .ok value)
    (done : (change.op before).apply env store = .ok final)
    (affected : change.affected store = some admin) :
    value = (final.adminOwnQuota.find admin).getD (final.budgetOf admin -
      (final.childrenTotal admin + final.pendingTotal (.account admin) none)) := by
  cases change with
  | setAdminBudget actor id bytes =>
      rcases StoreOp.committed_eq_ok done with ⟨result, done⟩
      rcases Store.setAdminBudgetWith_ok done with ⟨_, _, _, written⟩
      rcases Store.checkBudget_ok checked with ⟨_, _, _, _, told⟩
      cases affected
      subst written
      rw [told, Store.budgetOf_insert_self]
      rfl
  | setAdminOwn now actor id bytes =>
      rcases StoreOp.committed_eq_ok done with ⟨result, done⟩
      rcases Store.setAdminOwnWith_ok done with ⟨_, _, written⟩
      rcases bind_eq_ok.mp checked with ⟨_, _, told⟩
      cases affected
      subst written
      change value = ((store.adminOwnQuota.insert admin bytes).find admin).getD _
      rw [Table.find_insert_self]
      exact (Except.ok.inj told).symm
  | setChildQuota now actor id generation bytes =>
      rcases StoreOp.committed_eq_ok done with ⟨result, done⟩
      rcases Store.setChildQuotaWith_ok done with ⟨_, _, _, written⟩
      rcases Store.checkChildQuota_ok checked with ⟨row, owner, found, _, _, _, _, owned, _⟩
      rcases sound.childQuota checked found owned with ⟨part, room, told⟩
      have same : owner = admin := by
        change (store.accounts.find id).bind (fun row => row.ownerAdminId) = some admin at affected
        rw [found, Option.bind_some, owned] at affected
        exact Option.some.inj affected
      subst same
      subst written
      have moved := Store.childrenTotal_updateRow found (.setQuota bytes now) owner
      have weightBefore : Store.childWeight owner row = row.quotaBytes.getD 0 := if_pos owned
      have weightAfter : Store.childWeight owner ((RowUpdate.setQuota bytes now).apply row) =
          bytes := if_pos owned
      have covered := sound.budget owner
      rw [weightBefore, weightAfter] at moved
      rw [told]
      change (store.adminOwnQuota.find owner).getD _ = (store.adminOwnQuota.find owner).getD
        (store.budgetOf owner - ((store.updateRow (.setQuota bytes now) id).childrenTotal owner +
          store.pendingTotal (.account owner) none))
      congr 1
      omega

/-- A child is left with the quota it was given. -/
theorem child_effective {env : Environment} {before : Nat -> Except StoreError Unit}
    {store final : Store} {now : Nat} {actor : Authority} {id : Uuid} {generation bytes : Nat}
    (done : ((QuotaChange.setChildQuota now actor id generation bytes).op before).apply env store =
      .ok final) : final.effectiveQuota id = .ok (some bytes) := by
  rcases StoreOp.committed_eq_ok done with ⟨result, done⟩
  rcases Store.setChildQuotaWith_ok done with ⟨_, checked, _, written⟩
  rcases Store.checkChildQuota_ok checked with ⟨row, owner, found, kind, role, _⟩
  subst written
  have given : (({ store with
      virtualQuotaSync := store.virtualQuotaSync.insert id () }).updateRow
        (.setQuota bytes now) id).accounts.find id =
          some ((RowUpdate.setQuota bytes now).apply row) := by
    change (store.accounts.modify id _).find id = _
    rw [Table.find_modify_self, found]
    rfl
  exact Store.effectiveQuota_of_user given kind role

end QuotaChange

open QuotaChange in
/-- A quota change calls back at most once, after its checks, with the number
they computed, and a failure leaves the tables alone.  When it commits, that
number is the effective quota of the administrator it bears on, unless this is
a Linux account, which has none; and a child's effective quota is the one it was
given. -/
theorem callback_told_committed_quota {World : Type} (env : Environment)
    (dummyPasswordHash : Text) (ops : List StoreOp) (change : QuotaChange) (before : Hook World)
    (world : World) :
    let store := Runs.run (StoreOp.step env) (Store.initial dummyPasswordHash) ops
    let ended := change.runWith before store world
    (forall problem, change.check store = .error problem -> ended = (.error problem, world)) ∧
      (forall value, change.check store = .ok value -> change.Permitted store ∧
        ended.2 = (before value world).2 ∧
        forall problem, (before value world).1 = .error problem -> ended.1 = .error problem) ∧
      (forall problem, ended.1 = .error problem ->
        change.tablesAfter before store world = store) ∧
      forall final, ended.1 = .ok final ->
        change.tablesAfter before store world = final ∧
        ∃ value, change.check store = .ok value ∧ (before value world).1 = .ok () ∧
          (forall admin row, change.affected store = some admin ->
            final.accounts.find admin = some row -> row.role = .admin ->
              final.effectiveQuota admin = .ok (if row.kind = .linux then none else some value)) ∧
          forall now actor id generation bytes,
            change = .setChildQuota now actor id generation bytes ->
              final.effectiveQuota id = .ok (some bytes) := by
  intro store ended
  have sound : store.Allocated := Store.Allocated.run env dummyPasswordHash ops
  refine ⟨fun problem refused => runWith_of_refused refused, ?_, ?_, ?_⟩
  · intro value checked
    refine ⟨check_permitted sound checked, ?_, ?_⟩
    · have ran := runWith_world before store world change
      rw [checked] at ran
      exact ran
    · intro problem declined
      exact runWith_of_declined checked declined
  · intro problem failed
    unfold tablesAfter
    rw [failed]
  · intro final done
    have stored : change.tablesAfter before store world = final := by
      unfold tablesAfter
      rw [done]
    have applied := (runWith_outcome env before store world change).symm.trans done
    have kept : final.Allocated := sound.apply applied
    rcases runWith_ok done with ⟨value, checked, agreed⟩
    refine ⟨stored, value, checked, agreed, ?_, ?_⟩
    · intro admin row affected found role
      cases kind : row.kind with
      | linux => exact Store.effectiveQuota_of_linux found kind
      | virtual =>
          rw [Store.effectiveQuota_of_admin kept found kind role,
            told_eq sound checked applied affected]
          rfl
    · intro now actor id generation bytes named
      subst named
      exact child_effective applied

namespace ToldQuota

def environment : Environment := ⟨⟨fun _ _ => .ok true⟩, fun _ => [], ⟨fun _ => 0⟩⟩

/-- A callback that writes down what it is told and agrees. -/
def heard : Hook (List Nat) := fun value told => (.ok (), told ++ [value])

/-- A virtual administrator with a budget of 500 and a child with a quota of
100. -/
def ops : List StoreOp :=
  [.setPool .root 1000,
    .createRecord 1 0 .root
      ⟨"adm".toList, 1000, 1000, "/home/adm".toList, .virtual, .admin, none, none⟩ none none,
    .setAdminBudgetWith .root 1 500 (fun _ => .ok ()),
    .createRecord 2 0 .root
      ⟨"kid".toList, 1001, 1001, "/home/kid".toList, .virtual, .user, some 1, some 100⟩ none none]

def change : QuotaChange := .setChildQuota 5 .root 2 1 200

/-- A Linux administrator. -/
def linuxOps : List StoreOp :=
  [.setPool .root 1000,
    .createRecord 1 0 .root
      ⟨"ann".toList, 1000, 1000, "/home/ann".toList, .linux, .admin, none, none⟩ none none]

def linuxChange : QuotaChange := .setAdminBudget .root 1 500

end ToldQuota

open ToldQuota in
theorem callback_told_committed_quota_child :
    let store := Runs.run (StoreOp.step environment) (Store.initial []) ops
    ∃ final, (change.runWith heard store []).1 = .ok final ∧
      (change.runWith heard store []).2 = [300] ∧ final.effectiveQuota 1 = .ok (some 300) ∧
      final.effectiveQuota 2 = .ok (some 200) := by
  intro store
  have committed : ((change.runWith heard store []).1.toOption.bind (fun final =>
      (final.accounts.find 1).map (fun row => (row.kind, row.role)))) = some (.virtual, .admin) := by
    decide
  have told : (change.check store).toOption = some 300 := by decide
  have heardIt : (change.runWith heard store []).2 = [300] := by decide
  have bears : change.affected store = some 1 := by decide
  cases outcome : (change.runWith heard store []).1 with
  | error problem =>
      rw [outcome] at committed
      cases committed
  | ok final =>
      rw [outcome] at committed
      rcases Option.map_eq_some_iff.mp committed with ⟨row, found, same⟩
      rcases Prod.mk.inj same with ⟨kind, role⟩
      rcases (callback_told_committed_quota environment [] ops change heard []).2.2.2 final outcome
        with ⟨_, value, checked, _, admins, child⟩
      have effective := admins 1 row bears found role
      have known : change.check store = .ok value := checked
      rw [known] at told
      cases told
      rw [if_neg (by rw [kind]; decide)] at effective
      exact ⟨final, rfl, heardIt, effective, child 5 .root 2 1 200 rfl⟩

open ToldQuota in
/-- A Linux administrator's callback is told what the budget leaves, while the
account has no quota at all. -/
theorem linux_admin_told_a_quota :
    let store := Runs.run (StoreOp.step environment) (Store.initial []) linuxOps
    ∃ final, (linuxChange.runWith heard store []).1 = .ok final ∧
      (linuxChange.runWith heard store []).2 = [500] ∧ linuxChange.affected store = some 1 ∧
      final.effectiveQuota 1 = .ok none := by
  intro store
  have kept : ((linuxChange.runWith heard store []).1.toOption.bind (fun final =>
      (final.accounts.find 1).map (fun row => row.kind))) = some .linux := by decide
  cases outcome : (linuxChange.runWith heard store []).1 with
  | error problem =>
      rw [outcome] at kept
      cases kept
  | ok final =>
      rw [outcome] at kept
      rcases Option.map_eq_some_iff.mp kept with ⟨row, found, linux⟩
      exact ⟨final, rfl, by decide, by decide,
        Store.effectiveQuota_of_linux found linux⟩

end TealDrive
