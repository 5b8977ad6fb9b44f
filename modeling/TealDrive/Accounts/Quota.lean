import TealDrive.Accounts.Changes

namespace TealDrive

/-!
# The quota hierarchy

The pool bounds the administrators' budgets, and each budget bounds the quotas
of its children.  On both levels a pending creation reserves its quota before
the account exists, and an administrator may have a fixed own quota.
`Allocated` says that both levels are covered.  An operation either checks
that its own change fits, or moves no sum upwards; `NoMore` says the latter.
-/

namespace Store

/-! ## The invariant -/

/-- Both levels are covered by what is above them. -/
structure Allocated (store : Store) : Prop where
  bounded : store.poolLimit ≤ i64Max
  pool : store.budgetsTotal + store.pendingTotal .root none ≤ store.poolLimit
  budget : forall id, store.childrenTotal id + store.pendingTotal (.account id) none +
    store.ownOf id ≤ store.budgetOf id
  own : forall id bytes, store.adminOwnQuota.find id = some bytes -> 0 < bytes
  shaped : forall id row, store.accounts.find id = some row -> row.Shaped

/-- A budget is part of what the pool covers. -/
theorem budgetOf_le_total (store : Store) (id : Uuid) : store.budgetOf id ≤ store.budgetsTotal := by
  unfold budgetOf
  cases found : store.adminBudgets.find id with
  | none => exact Nat.zero_le _
  | some limit => exact Table.le_total (fun _ limit => limit) found

theorem Allocated.budget_le_max {store : Store} (sound : store.Allocated) (id : Uuid) :
    store.budgetOf id ≤ i64Max := by
  have part := store.budgetOf_le_total id
  have pool := sound.pool
  have bounded := sound.bounded
  omega

theorem pendingTotal_exclude_le (store : Store) (owner : IntentOwner)
    (exclude : Option IntentKey) :
    store.pendingTotal owner exclude ≤ store.pendingTotal owner none := by
  apply Table.total_le_total
  intro row _
  by_cases counted : row.2.owner = owner ∧ row.2.accountId = none
  · by_cases other : some row.1 ≠ exclude
    · simp [counted, other]
    · simp [counted]
      split <;> omega
  · rw [if_neg (fun both => counted ⟨both.1, both.2.1⟩)]
    exact Nat.zero_le _

/-! ## What is left, without wrapping around -/

theorem budgetLeft_eq {store : Store} (sound : store.Allocated) (owner : Uuid)
    (exclude : Option IntentKey) :
    store.budgetLeft owner exclude = ((store.budgetOf owner - store.childrenTotal owner -
      store.pendingTotal (.account owner) exclude - store.ownOf owner : Nat) : Int) := by
  have covered := sound.budget owner
  have bounded := sound.budget_le_max owner
  have fewer := store.pendingTotal_exclude_le (.account owner) exclude
  unfold budgetLeft
  rw [sub64_of_le (by omega) bounded, sub64_of_le (by omega) (by omega),
    sub64_of_le (by omega) (by omega)]

theorem poolLeft_eq {store : Store} (sound : store.Allocated) (exclude : Option IntentKey) :
    store.poolLeft exclude = ((store.poolLimit - store.budgetsTotal -
      store.pendingTotal .root exclude : Nat) : Int) := by
  have covered := sound.pool
  have bounded := sound.bounded
  have fewer := store.pendingTotal_exclude_le .root exclude
  unfold poolLeft
  rw [sub64_of_le (by omega) bounded, sub64_of_le (by omega) (by omega)]

/-! ## Sums under the elementary writes -/

/-- What one row counts for its owner. -/
def childWeight (owner : Uuid) (row : AccountRow) : Nat :=
  if row.ownerAdminId = some owner then row.quotaBytes.getD 0 else 0

/-- What one intent counts for its owner. -/
def intentWeight (owner : IntentOwner) (intent : Intent) : Nat :=
  if intent.owner = owner ∧ intent.accountId = none then intent.quota else 0

theorem childrenTotal_eq (store : Store) (owner : Uuid) :
    store.childrenTotal owner = store.accounts.total (fun _ row => childWeight owner row) := rfl

theorem pendingTotal_eq (store : Store) (owner : IntentOwner) :
    store.pendingTotal owner none =
      store.virtualCreate.total (fun _ intent => intentWeight owner intent) := by
  apply Table.total_congr
  intro key intent _
  unfold intentWeight
  simp

/-- Excluding an intent is the same as deleting it. -/
theorem pendingTotal_some (store : Store) (owner : IntentOwner) (key : IntentKey) :
    store.pendingTotal owner (some key) =
      (store.virtualCreate.erase key).total (fun _ intent => intentWeight owner intent) := by
  unfold pendingTotal Table.erase
  rw [Table.total_filter]
  apply Table.total_congr
  intro other intent _
  unfold intentWeight
  by_cases same : other = key
  · simp [same]
  · simp [same]

theorem pendingTotal_insert {store : Store} {key : IntentKey} {intent : Intent}
    (absent : store.virtualCreate.find key = none) (owner : IntentOwner) :
    ({ store with virtualCreate := store.virtualCreate.insert key intent }).pendingTotal owner none =
      store.pendingTotal owner none + intentWeight owner intent := by
  rw [pendingTotal_eq, pendingTotal_eq]
  exact Table.total_insert_of_absent intent _ absent

/-- A completed intent no longer counts. -/
theorem pendingTotal_complete (store : Store) (key : IntentKey) (state : Intent) (id : Uuid)
    (owner : IntentOwner) :
    ({ store with virtualCreate :=
        store.virtualCreate.insert key { state with accountId := some id } }).pendingTotal owner none =
      store.pendingTotal owner (some key) := by
  rw [pendingTotal_eq, pendingTotal_some]
  change (store.virtualCreate.insert key _).total _ = _
  rw [Table.total_insert]
  simp [intentWeight]

theorem childrenTotal_updateRow {store : Store} {id : Uuid} {row : AccountRow}
    (found : store.accounts.find id = some row) (update : RowUpdate) (owner : Uuid) :
    (store.updateRow update id).childrenTotal owner + childWeight owner row =
      store.childrenTotal owner + childWeight owner (update.apply row) :=
  Table.total_modify update.apply _ found

theorem budgetOf_insert_self (store : Store) (id : Uuid) (limit : Nat) :
    ({ store with adminBudgets := store.adminBudgets.insert id limit }).budgetOf id = limit := by
  unfold budgetOf
  rw [Table.find_insert_self]
  rfl

theorem budgetOf_insert_of_ne {store : Store} {id other : Uuid} (limit : Nat)
    (different : other ≠ id) :
    ({ store with adminBudgets := store.adminBudgets.insert id limit }).budgetOf other =
      store.budgetOf other := by
  unfold budgetOf
  rw [Table.find_insert_of_ne limit different]

theorem budgetsTotal_insert (store : Store) (id : Uuid) (limit : Nat) :
    ({ store with adminBudgets := store.adminBudgets.insert id limit }).budgetsTotal +
      store.budgetOf id = store.budgetsTotal + limit := by
  unfold budgetOf
  cases found : store.adminBudgets.find id with
  | none => exact Table.total_insert_of_absent limit (fun _ limit => limit) found
  | some old => exact Table.total_insert_of_found limit (fun _ limit => limit) found

/-! ## Operations that allocate nothing -/

/-- No sum below the pool or below a budget has grown. -/
structure NoMore (store final : Store) : Prop where
  pool : final.poolLimit = store.poolLimit
  budgets : final.adminBudgets = store.adminBudgets
  own : final.adminOwnQuota = store.adminOwnQuota
  pending : forall owner, final.pendingTotal owner none ≤ store.pendingTotal owner none
  children : forall owner, final.childrenTotal owner ≤ store.childrenTotal owner

theorem childrenTotal_purge (store : Store) (id owner : Uuid) :
    (store.updateRow .purge id).childrenTotal owner ≤ store.childrenTotal owner := by
  cases found : store.accounts.find id with
  | none =>
      have untouched : (store.updateRow .purge id).accounts = store.accounts :=
        Table.modify_of_absent _ found
      rw [childrenTotal_eq, childrenTotal_eq, untouched]
  | some row =>
      have moved := childrenTotal_updateRow found .purge owner
      have nothing : childWeight owner (RowUpdate.purge.apply row) = 0 := by
        unfold childWeight
        split <;> rfl
      omega

/-- A row without an owner counts for nobody. -/
theorem childWeight_of_unowned {row : AccountRow} (unowned : row.ownerAdminId = none)
    (owner : Uuid) : childWeight owner row = 0 := by
  unfold childWeight
  rw [unowned, if_neg (by simp)]

end Store

/-- The operations that draw on the pool or on a budget. -/
def StoreOp.allocates : StoreOp -> Bool
  | .setPool .. | .setAdminBudgetWith .. | .setAdminOwnWith .. | .createRecord ..
  | .setChildQuotaWith .. | .recordChildIntent .. | .recordAdminIntent .. => true
  | _ => false

open Store in
/-- The sum of an owner's quotas does not see a quiet change. -/
theorem QuietChange.children {rows after : Table Uuid AccountRow} (quiet : QuietChange rows after)
    (owner : Uuid) :
    after.total (fun _ row => childWeight owner row) =
      rows.total (fun _ row => childWeight owner row) := by
  cases quiet with
  | same => rfl
  | inserted id row new kind unowned =>
      rw [Table.total_insert_of_absent row _ new.absent, childWeight_of_unowned unowned]
      rfl
  | updated id row update found permitted keeps =>
      have moved := Table.total_modify update.apply (fun _ row => childWeight owner row) found
      have weight : childWeight owner (update.apply row) = childWeight owner row := by
        cases permitted <;> first | rfl | cases keeps
      omega
  | touched time =>
      rw [Table.total_map]
      rfl

open Store in
theorem StoreOp.apply_noMore {env : Environment} {store final : Store} {op : StoreOp}
    (done : op.apply env store = .ok final) (other : op.allocates = false) :
    NoMore store final := by
  by_cases silent : op.quiet = true
  · rcases StoreOp.apply_quiet done silent with ⟨rows, tables, pool⟩
    have limit : final.poolLimit = store.poolLimit := by
      rcases pool with same | ⟨actor, bytes, same⟩
      · exact same
      · subst same
        cases other
    refine ⟨limit, tables.budgets, tables.own, ?_, fun owner => Nat.le_of_eq (rows.children owner)⟩
    intro owner
    rw [pendingTotal_eq, pendingTotal_eq, tables.intents]
  · cases op with
    | cancelIntent now key uid =>
        rcases cancelIntent_eq store now uid key with ⟨retired, _, written⟩
        cases done
        rw [written]
        refine ⟨rfl, rfl, rfl, ?_, fun _ => Nat.le_refl _⟩
        intro owner
        rw [pendingTotal_eq]
        exact Nat.le_trans (Nat.le_of_eq (pendingTotal_some store owner key).symm)
          (pendingTotal_exclude_le store owner (some key))
    | recordPurgeIntent now id =>
        rcases committed_eq_ok done with ⟨result, done⟩
        rcases recordPurgeIntent_ok done with ⟨_, _, _, _, written⟩
        subst written
        exact ⟨rfl, rfl, rfl, fun _ => Nat.le_refl _, fun _ => Nat.le_refl _⟩
    | purge now id uid =>
        rcases committed_eq_ok done with ⟨result, done⟩
        rcases purge_ok done with ⟨_, _, _, _, written⟩
        subst written
        refine ⟨rfl, rfl, rfl, fun _ => Nat.le_refl _, ?_⟩
        intro owner
        exact childrenTotal_purge store id owner
    | createRecord | setAdminBudgetWith | setAdminOwnWith | setChildQuotaWith | recordChildIntent
    | recordAdminIntent => cases other
    | _ => exact absurd rfl silent

namespace Store

/-! ## The shape of account rows -/

theorem shaped_of_permitted {row : AccountRow} {update : RowUpdate}
    (permitted : Permitted row update) (shaped : row.Shaped) : (update.apply row).Shaped := by
  cases permitted with
  | purge storable => exact AccountRow.shaped_of_storable storable
  | setQuota bytes time kind role owner alive => exact .user kind role owner rfl
  | setRole role time kind active =>
      cases shaped with
      | linux kind owner quota => exact .linux kind owner quota
      | admin virtual => cases kind.symm.trans virtual
      | user virtual => cases kind.symm.trans virtual
  | touch | setPassword | setStatus | enroll | setUndoHours =>
      cases shaped with
      | linux kind owner quota => exact .linux kind owner quota
      | admin kind role owner quota => exact .admin kind role owner quota
      | user kind role owner quota => exact .user kind role owner quota

theorem shaped_of_change {rows after : Table Uuid AccountRow} (change : AccountsChange rows after)
    (before : forall id row, rows.find id = some row -> row.Shaped) :
    forall id row, after.find id = some row -> row.Shaped := by
  refine change.forall_rows (fun _ _ new => new.shaped) (fun _ _ => shaped_of_permitted) ?_ before
  intro row time shaped
  cases shaped with
  | linux kind owner quota => exact .linux kind owner quota
  | admin kind role owner quota => exact .admin kind role owner quota
  | user kind role owner quota => exact .user kind role owner quota

/-! ## Operations that allocate -/

/-- The invariant without the shape of rows, which every operation keeps. -/
theorem Allocated.of_change {store final : Store} (sound : store.Allocated)
    (change : AccountsChange store.accounts final.accounts)
    (bounded : final.poolLimit ≤ i64Max)
    (pool : final.budgetsTotal + final.pendingTotal .root none ≤ final.poolLimit)
    (budget : forall id, final.childrenTotal id + final.pendingTotal (.account id) none +
      final.ownOf id ≤ final.budgetOf id)
    (own : forall id bytes, final.adminOwnQuota.find id = some bytes -> 0 < bytes) :
    final.Allocated :=
  ⟨bounded, pool, budget, own, shaped_of_change change sound.shaped⟩

theorem Allocated.of_noMore {store final : Store} (sound : store.Allocated)
    (change : AccountsChange store.accounts final.accounts) (less : NoMore store final) :
    final.Allocated := by
  have budgetsSame : final.budgetsTotal = store.budgetsTotal := by
    unfold budgetsTotal
    rw [less.budgets]
  refine sound.of_change change (less.pool ▸ sound.bounded) ?_ ?_ (less.own ▸ sound.own)
  · have pending := less.pending .root
    have covered := sound.pool
    rw [budgetsSame, less.pool]
    omega
  · intro id
    have pending := less.pending (.account id)
    have children := less.children id
    have covered := sound.budget id
    have ownSame : final.ownOf id = store.ownOf id := by
      unfold ownOf
      rw [less.own]
    have budgetSame : final.budgetOf id = store.budgetOf id := by
      unfold budgetOf
      rw [less.budgets]
    omega

/-- Replacing one budget moves the pool's sum by the difference. -/
theorem Allocated.setAdminBudget {store : Store} (sound : store.Allocated) {actor : Authority}
    {id : Uuid} {bytes remaining : Nat}
    (checked : store.checkBudget actor id bytes = .ok remaining) :
    ({ store with adminBudgets := store.adminBudgets.insert id bytes }).Allocated := by
  rcases checkBudget_ok checked with ⟨_, fits, covers, fitsPool, _⟩
  have replaced := budgetsTotal_insert store id bytes
  have part := store.budgetOf_le_total id
  have covered := sound.pool
  have bounded := sound.bounded
  rw [sub64_of_le part (by omega), sub64_of_le (by omega) bounded,
    sub64_of_le (by omega) (by omega)] at fitsPool
  refine sound.of_change .same bounded ?_ ?_ sound.own
  · change _ + store.pendingTotal .root none ≤ store.poolLimit
    omega
  · intro other
    change store.childrenTotal other + store.pendingTotal (.account other) none +
      store.ownOf other ≤ _
    by_cases same : other = id
    · subst same
      rw [budgetOf_insert_self]
      exact covers
    · rw [budgetOf_insert_of_ne bytes same]
      exact sound.budget other

theorem Allocated.setAdminOwn {store : Store} (sound : store.Allocated) {actor : Authority}
    {id : Uuid} {bytes now : Nat} (checked : store.checkOwn actor id bytes = .ok ()) :
    (({ store with
      adminOwnQuota := store.adminOwnQuota.insert id bytes
      virtualQuotaSync := store.virtualQuotaSync.insert id () }).updateRow
        (.touch now) id).Allocated := by
  rcases checkOwn_ok checked with ⟨_, positive, _, ⟨row, found, _, _, active⟩, fits⟩
  have covered := sound.budget id
  have bounded := sound.budget_le_max id
  rw [sub64_of_le (by omega) bounded, sub64_of_le (by omega) (by omega)] at fits
  refine sound.of_change (.updated id row _ found (.touch now (by rw [active]; decide)))
    sound.bounded sound.pool ?_ ?_
  · intro other
    have moved := childrenTotal_updateRow found (.touch now) other
    have weight : childWeight other ((RowUpdate.touch now).apply row) = childWeight other row := rfl
    have others := sound.budget other
    change (store.updateRow (.touch now) id).childrenTotal other +
      store.pendingTotal (.account other) none +
        ((store.adminOwnQuota.insert id bytes).find other).getD 0 ≤ store.budgetOf other
    by_cases same : other = id
    · subst same
      rw [Table.find_insert_self, Option.getD_some]
      omega
    · rw [Table.find_insert_of_ne _ same]
      unfold ownOf at others
      omega
  · intro other amount stored
    change (store.adminOwnQuota.insert id bytes).find other = some amount at stored
    by_cases same : other = id
    · subst same
      rw [Table.find_insert_self] at stored
      cases stored
      exact positive
    · rw [Table.find_insert_of_ne _ same] at stored
      exact sound.own other amount stored

/-- The sums of a checked quota change, without wrapping around. -/
theorem Allocated.childQuota {store : Store} (sound : store.Allocated) {actor : Authority}
    {id owner : Uuid} {row : AccountRow} {generation bytes remaining : Nat}
    (checked : store.checkChildQuota actor id generation bytes = .ok remaining)
    (found : store.accounts.find id = some row) (owned : row.ownerAdminId = some owner) :
    row.quotaBytes.getD 0 ≤ store.childrenTotal owner ∧
      bytes + store.childrenTotal owner + store.pendingTotal (.account owner) none +
        store.ownOf owner ≤ store.budgetOf owner + row.quotaBytes.getD 0 ∧
      remaining = (store.adminOwnQuota.find owner).getD (store.budgetOf owner -
        (store.childrenTotal owner + store.pendingTotal (.account owner) none) +
          row.quotaBytes.getD 0 - bytes) := by
  rcases checkChildQuota_fits checked found owned with ⟨_, _, fits, left⟩
  have covered := sound.budget owner
  have bounded := sound.budget_le_max owner
  have counted : childWeight owner row = row.quotaBytes.getD 0 := if_pos owned
  have part : childWeight owner row ≤ store.childrenTotal owner :=
    Table.le_total (fun _ row => childWeight owner row) found
  rw [counted] at part
  rw [sub64_of_le (by omega) (by omega), sub64_of_le (by omega) bounded,
    sub64_of_le (by omega) (by omega)] at fits
  have room : bytes + store.childrenTotal owner + store.pendingTotal (.account owner) none +
      store.ownOf owner ≤ store.budgetOf owner + row.quotaBytes.getD 0 := by omega
  refine ⟨part, room, ?_⟩
  rw [sub64_of_le (by omega) bounded, ← Int.natCast_add, sub64_of_le (by omega) (by omega)] at left
  cases stored : store.adminOwnQuota.find owner with
  | none =>
      rw [stored] at left
      exact left
  | some own =>
      rw [stored] at left
      exact left

/-- Changing one child's quota moves its owner's sum by the difference. -/
theorem Allocated.setChildQuota {store : Store} (sound : store.Allocated) {actor : Authority}
    {id : Uuid} {generation bytes remaining now : Nat}
    (checked : store.checkChildQuota actor id generation bytes = .ok remaining) :
    (({ store with virtualQuotaSync := store.virtualQuotaSync.insert id () }).updateRow
      (.setQuota bytes now) id).Allocated := by
  rcases checkChildQuota_ok checked with ⟨row, owner, found, kind, role, alive, _, owned, _⟩
  rcases sound.childQuota checked found owned with ⟨part, room, _⟩
  have counted : childWeight owner row = row.quotaBytes.getD 0 := if_pos owned
  refine sound.of_change (.updated id row _ found (.setQuota bytes now kind role (by rw [owned]; rfl)
    alive)) sound.bounded sound.pool ?_ sound.own
  intro other
  have moved := childrenTotal_updateRow found (.setQuota bytes now) other
  have others := sound.budget other
  change (store.updateRow (.setQuota bytes now) id).childrenTotal other +
    store.pendingTotal (.account other) none + store.ownOf other ≤ store.budgetOf other
  by_cases same : other = owner
  · subst same
    have weight : childWeight other ((RowUpdate.setQuota bytes now).apply row) = bytes :=
      if_pos owned
    omega
  · have apart : row.ownerAdminId ≠ some other := by
      rw [owned]
      exact fun equal => same (Option.some.inj equal).symm
    have weight : childWeight other ((RowUpdate.setQuota bytes now).apply row) = 0 :=
      if_neg apart
    have before : childWeight other row = 0 := if_neg apart
    omega

/-- A recorded intent reserves what its owner has left. -/
theorem Allocated.recordIntent {store : Store} (sound : store.Allocated) {key : IntentKey}
    {intent : Intent} (absent : store.virtualCreate.find key = none)
    (fits : match intent.owner with
      | .root => intent.quota ≤ store.poolLeft none
      | .account owner => intent.quota ≤ store.budgetLeft owner none) :
    ({ store with virtualCreate := store.virtualCreate.insert key intent }).Allocated := by
  refine sound.of_change .same sound.bounded ?_ ?_ sound.own
  · rw [pendingTotal_insert absent]
    change store.budgetsTotal + _ ≤ store.poolLimit
    have covered := sound.pool
    cases owner : intent.owner with
    | root =>
        rw [owner] at fits
        change (intent.quota : Int) ≤ _ at fits
        rw [poolLeft_eq sound] at fits
        have weight : intentWeight .root intent ≤ intent.quota := by
          unfold intentWeight
          split <;> omega
        omega
    | account id =>
        have weight : intentWeight .root intent = 0 := if_neg (by simp [owner])
        omega
  · intro id
    rw [pendingTotal_insert absent]
    change store.childrenTotal id + _ + store.ownOf id ≤ store.budgetOf id
    have covered := sound.budget id
    by_cases mine : intent.owner = .account id
    · rw [mine] at fits
      change (intent.quota : Int) ≤ _ at fits
      rw [budgetLeft_eq sound] at fits
      have weight : intentWeight (.account id) intent ≤ intent.quota := by
        unfold intentWeight
        split <;> omega
      omega
    · have weight : intentWeight (.account id) intent = 0 := if_neg (fun both => mine both.1)
      omega

theorem pendingTotal_withIntent {store final : Store} {id : Uuid}
    {requestState : Option (IntentKey × Intent)}
    (written : final.virtualCreate = withIntent store.virtualCreate id requestState)
    (owner : IntentOwner) :
    final.pendingTotal owner none = store.pendingTotal owner (requestState.map Prod.fst) := by
  have rows : final.pendingTotal owner none =
      ({ store with virtualCreate := withIntent store.virtualCreate id requestState }).pendingTotal
        owner none := by
    unfold pendingTotal
    rw [written]
  rw [rows]
  cases requestState with
  | none => rfl
  | some pair => exact pendingTotal_complete store pair.1 pair.2 id owner

/-- A creation that draws nothing from the pool leaves the budgets alone. -/
theorem Allocated.create_unbudgeted {store final : Store} (sound : store.Allocated)
    {exclude : Option IntentKey} (change : AccountsChange store.accounts final.accounts)
    (limit : final.poolLimit = store.poolLimit) (own : final.adminOwnQuota = store.adminOwnQuota)
    (budgets : final.adminBudgets = store.adminBudgets)
    (pending : forall owner, final.pendingTotal owner none = store.pendingTotal owner exclude)
    (children : forall owner, final.childrenTotal owner ≤
      store.budgetOf owner - store.pendingTotal (.account owner) exclude - store.ownOf owner) :
    final.Allocated := by
  refine sound.of_change change (limit ▸ sound.bounded) ?_ ?_ (own ▸ sound.own)
  · have fewer := store.pendingTotal_exclude_le .root exclude
    have covered := sound.pool
    unfold budgetsTotal at covered ⊢
    rw [budgets, limit, pending]
    omega
  · intro owner
    have fewer := store.pendingTotal_exclude_le (.account owner) exclude
    have covered := sound.budget owner
    have bound := children owner
    unfold ownOf budgetOf at covered bound ⊢
    rw [own, budgets, pending]
    omega

/-- The new row takes the place of its intent. -/
theorem Allocated.create {store final : Store} (sound : store.Allocated) {actor : Authority}
    {id : Uuid} {now : Nat} {new : NewAccount} {hash : Option Text}
    {requestState : Option (IntentKey × Intent)} {budget : Option Nat}
    (created : Created store actor id new requestState budget)
    (limit : final.poolLimit = store.poolLimit) (own : final.adminOwnQuota = store.adminOwnQuota)
    (rows : final.accounts = store.accounts.insert id (createdRow now new hash))
    (budgets : final.adminBudgets = withBudget store.adminBudgets id budget)
    (intents : final.virtualCreate = withIntent store.virtualCreate id requestState) :
    final.Allocated := by
  have change : AccountsChange store.accounts final.accounts := by
    rw [rows]
    exact .inserted id _ (inserted_of_created created)
  have pending := pendingTotal_withIntent intents
  have fewer : forall owner, store.pendingTotal owner (requestState.map Prod.fst) ≤
      store.pendingTotal owner none := fun owner => store.pendingTotal_exclude_le owner _
  have children : forall owner, final.childrenTotal owner =
      store.childrenTotal owner + childWeight owner (createdRow now new hash) := by
    intro owner
    rw [childrenTotal_eq, rows]
    exact Table.total_insert_of_absent _ _ created.absent
  rcases created.allocation with ⟨caller, allocation⟩
  rcases checkAllocation_ok allocation with
    ⟨unowned, _, _⟩ | ⟨owner, quota, owned, given, kind, role, fits, _⟩
  · have weight : forall owner, childWeight owner (createdRow now new hash) = 0 :=
      childWeight_of_unowned unowned
    cases budget with
    | none =>
        refine sound.create_unbudgeted change limit own budgets pending ?_
        intro owner
        have covered := sound.budget owner
        have less := fewer (.account owner)
        rw [children, weight]
        omega
    | some drawn =>
        rcases rootBudget_ok created.drawn with ⟨key, state, given, _, fits⟩
        subst given
        rw [poolLeft_eq sound] at fits
        have free := created.unbudgeted rfl
        have replaced := budgetsTotal_insert store id drawn
        refine sound.of_change change (limit ▸ sound.bounded) ?_ ?_ (own ▸ sound.own)
        · have covered := sound.pool
          have less : store.pendingTotal .root (some key) ≤ store.pendingTotal .root none :=
            fewer .root
          have reserved : final.pendingTotal .root none = store.pendingTotal .root (some key) :=
            pending .root
          have total : final.budgetsTotal =
              ({ store with adminBudgets := store.adminBudgets.insert id drawn }).budgetsTotal := by
            unfold budgetsTotal
            rw [budgets]
            rfl
          omega
        · intro owner
          have covered := sound.budget owner
          have less := fewer (.account owner)
          have reserved := pending (.account owner)
          have sum := children owner
          have nothing := weight owner
          have ownSame : final.ownOf owner = store.ownOf owner := by
            unfold ownOf
            rw [own]
          have grown : store.budgetOf owner ≤ final.budgetOf owner := by
            unfold budgetOf
            rw [budgets]
            by_cases here : owner = id
            · subst here
              rw [free]
              exact Nat.zero_le _
            · change _ ≤ ((store.adminBudgets.insert id drawn).find owner).getD 0
              rw [Table.find_insert_of_ne drawn here]
          omega
  · have unbudgeted : budget = none := by
      cases budget with
      | none => rfl
      | some drawn =>
          rcases rootBudget_ok created.drawn with ⟨_, _, _, admin, _⟩
          rw [role] at admin
          cases admin
    subst unbudgeted
    rw [budgetLeft_eq sound] at fits
    refine sound.create_unbudgeted change limit own budgets pending ?_
    intro other
    have covered := sound.budget other
    have less := fewer (.account other)
    rw [children]
    by_cases mine : other = owner
    · subst mine
      have weight : childWeight other (createdRow now new hash) = quota := by
        unfold childWeight
        change (if new.ownerAdminId = some other then new.quotaBytes.getD 0 else 0) = quota
        rw [if_pos owned, given]
        rfl
      omega
    · have weight : childWeight other (createdRow now new hash) = 0 := by
        apply if_neg
        change new.ownerAdminId ≠ some other
        rw [owned]
        exact fun equal => mine (Option.some.inj equal).symm
      omega

/-! ## Runs -/

theorem Allocated.apply {env : Environment} {store final : Store} {op : StoreOp}
    (sound : store.Allocated) (done : op.apply env store = .ok final) : final.Allocated := by
  by_cases other : op.allocates = false
  · exact sound.of_noMore (StoreOp.apply_accounts done) (StoreOp.apply_noMore done other)
  · cases op with
    | setPool actor bytes =>
        rcases StoreOp.committed_eq_ok done with ⟨result, done⟩
        rcases setPool_ok done with ⟨fits, enough, written⟩
        subst written
        exact ⟨fits, enough, sound.budget, sound.own, sound.shaped⟩
    | setAdminBudgetWith actor id bytes beforeCommit =>
        rcases StoreOp.committed_eq_ok done with ⟨result, done⟩
        rcases setAdminBudgetWith_ok done with ⟨remaining, checked, _, written⟩
        subst written
        exact sound.setAdminBudget checked
    | setAdminOwnWith now actor id bytes before =>
        rcases StoreOp.committed_eq_ok done with ⟨result, done⟩
        rcases setAdminOwnWith_ok done with ⟨checked, _, written⟩
        subst written
        exact sound.setAdminOwn checked
    | createRecord id now actor new hash requestState =>
        rcases StoreOp.committed_eq_ok done with ⟨result, done⟩
        rcases createRecord_ok done with ⟨budget, required, created, written⟩
        subst written
        exact sound.create created rfl rfl rfl rfl rfl
    | setChildQuotaWith now actor id generation bytes before =>
        rcases StoreOp.committed_eq_ok done with ⟨result, done⟩
        rcases setChildQuotaWith_ok done with ⟨remaining, checked, _, written⟩
        subst written
        exact sound.setChildQuota checked
    | recordChildIntent actor generation request name quota uid =>
        rcases StoreOp.committed_eq_ok done with ⟨result, done⟩
        rcases recordChildIntent_ok done with ⟨_, fits, absent, written⟩
        subst written
        exact sound.recordIntent absent fits
    | recordAdminIntent request name budget uid =>
        rcases StoreOp.committed_eq_ok done with ⟨result, done⟩
        rcases recordAdminIntent_ok done with ⟨fits, absent, written⟩
        subst written
        exact sound.recordIntent absent fits
    | _ => exact absurd rfl other

theorem Allocated.initial (dummyPasswordHash : Text) :
    (Store.initial dummyPasswordHash).Allocated := by
  refine ⟨Nat.zero_le _, Nat.le_refl 0, fun _ => Nat.le_refl 0, ?_, ?_⟩
  · intro id bytes found
    cases found
  · intro id row found
    cases found

theorem Allocated.run (env : Environment) (dummyPasswordHash : Text) (ops : List StoreOp) :
    (Runs.run (StoreOp.step env) (Store.initial dummyPasswordHash) ops).Allocated := by
  refine Runs.invariant Allocated ?_ (Allocated.initial dummyPasswordHash) ops
  intro store op sound
  rcases StoreOp.step_cases env store op with same | done
  · rw [same]
    exact sound
  · exact sound.apply done

/-! ## Effective quotas -/

/-- The effective quota as a number, zero where there is none. -/
def effectiveBytes (store : Store) (id : Uuid) : Nat :=
  match store.effectiveQuota id with
  | .ok (some bytes) => bytes
  | _ => 0

/-- The effective quotas of the accounts of one owner. -/
def childrenEffective (store : Store) (owner : Uuid) : Nat :=
  store.accounts.total (fun id row =>
    if row.ownerAdminId = some owner then store.effectiveBytes id else 0)

theorem effectiveQuota_of_user {store : Store} {id : Uuid} {row : AccountRow}
    (found : store.accounts.find id = some row) (kind : row.kind = .virtual)
    (role : row.role = .user) : store.effectiveQuota id = .ok row.quotaBytes := by
  unfold effectiveQuota
  rw [account_of_find found]
  change (if row.kind = .linux then _ else if row.role = .user then _ else _) = _
  rw [kind, role, if_neg (by decide), if_pos rfl]
  rfl

theorem effectiveQuota_of_linux {store : Store} {id : Uuid} {row : AccountRow}
    (found : store.accounts.find id = some row) (kind : row.kind = .linux) :
    store.effectiveQuota id = .ok none := by
  unfold effectiveQuota
  rw [account_of_find found]
  exact if_pos kind

theorem fixedOwn_eq {store : Store} (sound : store.Allocated) (id : Uuid) :
    store.fixedOwn id = .ok ((store.adminOwnQuota.find id).map (fun bytes => (bytes : Int))) := by
  have covered := sound.budget id
  have bounded := sound.budget_le_max id
  unfold fixedOwn
  unfold ownOf at covered
  cases stored : store.adminOwnQuota.find id with
  | none => rfl
  | some own =>
      have positive := sound.own id own stored
      rw [stored, Option.getD_some] at covered
      exact if_pos ⟨positive, by omega⟩

/-- An administrator's effective quota is its own quota, or what the budget
has left. -/
theorem effectiveQuota_of_admin {store : Store} (sound : store.Allocated) {id : Uuid}
    {row : AccountRow} (found : store.accounts.find id = some row) (kind : row.kind = .virtual)
    (role : row.role = .admin) :
    store.effectiveQuota id = .ok (some ((store.adminOwnQuota.find id).getD
      (store.budgetOf id - (store.childrenTotal id + store.pendingTotal (.account id) none)))) := by
  have covered := sound.budget id
  have bounded := sound.budget_le_max id
  have children : store.childrenAllocated id = .ok (store.childrenTotal id : Int) :=
    if_pos (by omega)
  have pending : store.pendingReserved (.account id) none =
      .ok (store.pendingTotal (.account id) none : Int) := if_pos (by omega)
  have added : checkedAdd (store.childrenTotal id) (store.pendingTotal (.account id) none) =
      .ok ((store.childrenTotal id + store.pendingTotal (.account id) none : Nat) : Int) :=
    if_pos (by omega)
  have left : sub64 (store.budgetOf id)
      (store.childrenTotal id + store.pendingTotal (.account id) none : Nat) =
      ((store.budgetOf id - (store.childrenTotal id + store.pendingTotal (.account id) none) : Nat) :
        Int) := sub64_of_le (by omega) bounded
  have notLinux : ¬ (store.view id row).kind = .linux := by
    change ¬ row.kind = .linux
    rw [kind]
    decide
  have notUser : ¬ (store.view id row).role = .user := by
    change ¬ row.role = .user
    rw [role]
    decide
  unfold effectiveQuota
  rw [Outcome.bind_eq_ok]
  refine ⟨_, account_of_find found, ?_⟩
  rw [if_neg notLinux, if_neg notUser]
  simp only [Outcome.bind_eq_ok, Outcome.refuse_eq_ok, Outcome.pure_eq_ok]
  refine ⟨_, children, _, pending, _, added, ⟨⟩, decide_eq_false (by omega), _,
    fixedOwn_eq sound id, ⟨⟩, ?_, ?_⟩
  · cases stored : store.adminOwnQuota.find id with
    | none => rfl
    | some own =>
        unfold ownOf at covered
        rw [stored, Option.getD_some] at covered
        apply decide_eq_false
        rw [left]
        change ¬ (own : Int) > _
        omega
  · rw [left]
    cases store.adminOwnQuota.find id <;> rfl

theorem childrenEffective_eq {store : Store} (sound : store.Allocated) (owner : Uuid) :
    store.childrenEffective owner = store.childrenTotal owner := by
  apply Table.total_congr
  intro id row found
  by_cases owned : row.ownerAdminId = some owner
  · rw [if_pos owned, if_pos owned]
    unfold effectiveBytes
    cases sound.shaped id row found with
    | linux kind unowned quota => rw [unowned] at owned; cases owned
    | admin kind role unowned quota => rw [unowned] at owned; cases owned
    | user kind role owner quota =>
        rw [effectiveQuota_of_user found kind role]
        rcases Option.isSome_iff_exists.mp quota with ⟨bytes, given⟩
        rw [given]
        rfl
  · rw [if_neg owned, if_neg owned]

end Store

open Store

/-- In every reachable store the pool covers the budgets and each budget
covers its children, whatever the operations, their arguments and their
callers were; so every virtual account has an effective quota, and those of an
administrator and its children stay within the budget. -/
theorem quota_never_overcommitted (env : Environment) (dummyPasswordHash : Text)
    (ops : List StoreOp) :
    let store := Runs.run (StoreOp.step env) (Store.initial dummyPasswordHash) ops
    store.budgetsTotal + store.pendingTotal .root none ≤ store.poolLimit ∧
      (forall id limit, store.adminBudgets.find id = some limit ->
        store.childrenTotal id + store.pendingTotal (.account id) none + store.ownOf id ≤ limit) ∧
      (forall id row, store.accounts.find id = some row -> row.kind = .virtual ->
        ∃ bytes, store.effectiveQuota id = .ok (some bytes)) ∧
      (forall id row, store.accounts.find id = some row -> row.role = .admin ->
        store.effectiveBytes id + store.childrenEffective id ≤ store.budgetOf id) := by
  intro store
  have sound : store.Allocated := Allocated.run env dummyPasswordHash ops
  refine ⟨sound.pool, ?_, ?_, ?_⟩
  · intro id limit found
    have covered := sound.budget id
    unfold budgetOf at covered
    rw [found, Option.getD_some] at covered
    exact covered
  · intro id row found virtual
    cases sound.shaped id row found with
    | linux kind => rw [virtual] at kind; cases kind
    | admin kind role => exact ⟨_, effectiveQuota_of_admin sound found kind role⟩
    | user kind role owner quota =>
        rcases Option.isSome_iff_exists.mp quota with ⟨bytes, given⟩
        exact ⟨bytes, given ▸ effectiveQuota_of_user found kind role⟩
  · intro id row found admin
    have covered := sound.budget id
    rw [childrenEffective_eq sound]
    unfold effectiveBytes
    cases kind : row.kind with
    | linux =>
        rw [effectiveQuota_of_linux found kind]
        change 0 + _ ≤ _
        omega
    | virtual =>
        rw [effectiveQuota_of_admin sound found kind admin]
        change (store.adminOwnQuota.find id).getD _ + _ ≤ _
        unfold ownOf at covered
        cases stored : store.adminOwnQuota.find id with
        | none =>
            rw [Option.getD_none]
            omega
        | some own =>
            rw [stored, Option.getD_some] at covered
            rw [Option.getD_some]
            omega

end TealDrive
