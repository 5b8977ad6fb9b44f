import TealDrive.Accounts.NativeCalls
import TealDrive.Accounts.Uids

namespace TealDrive

open Outcome Store
open Faults (Guided Stable Ordered attempt provided ofExcept)

/-!
# Uids over runs of provisioning

Most of the steps of provisioning leave the tenants alone; programs made of them
keep every assertion about tenants.  The rest are the statements that record,
complete and cancel an intent, and the two that retire the uid of a deleted
account.
-/

/-- What lies between two worlds of a run. -/
def World.UidsKept (world later : World) : Prop := TealDrive.UidsKept world.store later.store

instance : IsPreorder World World.UidsKept where
  refl := fun world => .refl world.store
  trans := fun _ _ _ first second => first.trans second

def World.Leased (cfg : AppConfig) (world : World) : Prop := TealDrive.Leased cfg world.store

/-- The store binds and retires the same uids as before. -/
structure Calm (store later : Store) : Prop where
  same : Undisturbed store later
  retired : later.virtualUidRetired = store.virtualUidRetired

theorem Calm.refl (store : Store) : Calm store store := ⟨.refl store, rfl⟩

/-- The assertion is about tenants only. -/
def Lasting (assertion : World -> Prop) : Prop :=
  forall world later, Calm world.store later.store -> assertion world -> assertion later

theorem Lasting.and {first second : World -> Prop} (left : Lasting first) (right : Lasting second) :
    Lasting (fun world => first world ∧ second world) :=
  fun world later calm both => ⟨left world later calm both.1, right world later calm both.2⟩

theorem Lasting.imp {condition : Prop} {assertion : World -> Prop} (lasting : Lasting assertion) :
    Lasting (fun world => condition -> assertion world) :=
  fun world later calm holds given => lasting world later calm (holds given)

theorem Lasting.trivial_ : Lasting (fun _ => True) := fun _ _ _ given => given

/-- A program after whose failure nothing is left to say. -/
def Keeps (cfg : AppConfig) {Value : Type} (before : World -> Prop) (program : Provisioning Value)
    (after : Value -> World -> Prop) : Prop :=
  Guided World.UidsKept (World.Leased cfg) before program after (fun _ => True)

section Rules

variable {env : Environment} {cfg : AppConfig} {Value Result : Type} {assertion : World -> Prop}

theorem World.move_calm (env : Environment) (world : World) (step : Move) :
    Calm world.store (world.move env step).store := by
  cases step with
  | get id =>
      have same : (world.move env (.get id)).store = world.store := by
        simp only [World.move]
        cases world.store.account id <;> rfl
      rw [same]
      exact .refl _
  | commit op =>
      by_cases silent : op.quiet = true
      · have committed : world.move env (.commit op) =
            { world with store := StoreOp.step env world.store op } := if_pos silent
        rw [committed]
        rcases StoreOp.step_cases env world.store op with same | done
        · rw [same]
          exact .refl _
        · rcases StoreOp.apply_quiet done silent with ⟨rows, tables, _⟩
          exact ⟨.of_quiet rows tables, tables.retired⟩
      · have unchanged : world.move env (.commit op) = world := if_neg silent
        rw [unchanged]
        exact .refl _

theorem Lasting.stable (lasting : Lasting assertion) :
    Stable (World.move env) (World.Leased cfg) assertion := by
  intro world step sound holds
  have calm := world.move_calm env step
  exact ⟨calm.same.leased sound, lasting world _ calm holds⟩

/-- One statement, in the midst of others. -/
theorem transact_guided {transaction : Store -> Except StoreError (Value × Store)}
    {after : Value -> World -> Prop} {broken : World -> Prop} (lasting : Lasting assertion)
    (acts : forall world value final, World.Leased cfg world -> assertion world ->
      transaction world.store = .ok (value, final) ->
      Leased cfg final ∧ after value { world with store := final } ∧
        UidsKept world.store final)
    (fails : forall world, assertion world -> broken world) :
    Guided World.UidsKept (World.Leased cfg) assertion (transact env transaction) after broken := by
  refine Guided.perform lasting.stable ?_ ?_ ?_ (fun world _ => fails world)
  · intro world step _ _
    exact (world.move_calm env step).same.kept
  · intro world value final sound holds done
    simp only [bind_eq_ok, pure_eq_ok, Prod.mk.injEq] at done
    rcases done with ⟨⟨result, store⟩, committed, sameValue, sameWorld⟩
    subst sameValue
    subst sameWorld
    exact acts world result store sound holds committed
  · intro world sound holds
    exact ⟨sound, fails world holds, .refl world.store⟩

theorem query_guided {read : Store -> Except StoreError Value} {after : Value -> World -> Prop}
    {broken : World -> Prop} (lasting : Lasting assertion)
    (reads : forall world value, assertion world -> read world.store = .ok value ->
      after value world)
    (fails : forall world, assertion world -> broken world) :
    Guided World.UidsKept (World.Leased cfg) assertion (query env read) after broken := by
  refine transact_guided lasting ?_ fails
  intro world value final sound holds done
  simp only [bind_eq_ok, pure_eq_ok, Prod.mk.injEq] at done
  rcases done with ⟨_, answered, rfl, rfl⟩
  exact ⟨sound, reads world _ holds answered, .refl world.store⟩

theorem check_guided (outcome : Except StoreError Value) :
    Keeps cfg assertion (ofExcept outcome : Provisioning Value)
      (fun value world => assertion world ∧ outcome = .ok value) :=
  Guided.ofExcept (fun _ same _ _ holds => ⟨holds, same⟩) (fun _ _ _ => trivial)

/-- The rest of a transaction, with nobody beside it. -/
theorem commit_guided {transaction : Store -> Except StoreError (Value × Store)}
    {after : Value -> World -> Prop} {broken : World -> Prop}
    (acts : forall world value final, World.Leased cfg world -> assertion world ->
      transaction world.store = .ok (value, final) ->
      Leased cfg final ∧ after value { world with store := final } ∧
        UidsKept world.store final)
    (fails : forall world, assertion world -> broken world) :
    Guided World.UidsKept (World.Leased cfg) assertion (commit transaction) after broken := by
  refine Guided.perform (fun _ _ sound holds => ⟨sound, holds⟩) ?_ ?_ ?_ (fun world _ => fails world)
  · intro world step _ _
    exact .refl world.store
  · intro world value final sound holds done
    simp only [bind_eq_ok, pure_eq_ok, Prod.mk.injEq] at done
    rcases done with ⟨⟨result, store⟩, committed, sameValue, sameWorld⟩
    subst sameValue
    subst sameWorld
    exact acts world result store sound holds committed
  · intro world sound holds
    exact ⟨sound, fails world holds, .refl world.store⟩

end Rules

/-! ## Programs that leave the tenants alone -/

/-- Every assertion about tenants survives the program. -/
def Neutral (cfg : AppConfig) {Value : Type} (program : Provisioning Value) : Prop :=
  forall assertion, Lasting assertion ->
    Guided World.UidsKept (World.Leased cfg) assertion program (fun _ => assertion) assertion

namespace Neutral

variable {env : Environment} {cfg : AppConfig} {Value Result : Type}

/-- Where the failures of a program do not matter. -/
theorem alone {program : Provisioning Value} (neutral : Neutral cfg program)
    {assertion : World -> Prop} (lasting : Lasting assertion) :
    Keeps cfg assertion program (fun _ => assertion) :=
  (neutral assertion lasting).weaken (fun _ _ holds => holds) (fun _ _ _ holds => holds)
    (fun _ _ _ => trivial)

theorem pure (value : Value) : Neutral cfg (Pure.pure value : Provisioning Value) :=
  fun _ _ => Guided.pure (fun _ _ holds => holds)

theorem check (outcome : Except StoreError Value) :
    Neutral cfg (ofExcept outcome : Provisioning Value) :=
  fun _ _ => Guided.ofExcept (fun _ _ _ _ holds => holds) (fun _ _ holds => holds)

theorem bind {first : Provisioning Value} {next : Value -> Provisioning Result}
    (start : Neutral cfg first) (rest : forall value, Neutral cfg (next value)) :
    Neutral cfg (first >>= next) :=
  fun assertion lasting =>
    (start assertion lasting).bind (fun value => rest value assertion lasting)

theorem provided {program : Provisioning Unit} (condition : Bool) (neutral : Neutral cfg program) :
    Neutral cfg (Faults.provided condition program) :=
  fun assertion lasting =>
    Guided.provided (fun _ => neutral assertion lasting) (fun _ _ _ holds => holds)

theorem attempt {program : Provisioning Value} (neutral : Neutral cfg program) :
    Neutral cfg (Faults.attempt program) :=
  fun assertion lasting =>
    Guided.attempt assertion (neutral assertion lasting) (fun _ _ _ holds => holds)

theorem transact {transaction : Store -> Except StoreError (Value × Store)}
    (calm : forall store value final, transaction store = .ok (value, final) -> Calm store final) :
    Neutral cfg (TealDrive.transact env transaction) := by
  intro assertion lasting
  refine transact_guided lasting ?_ (fun _ holds => holds)
  intro world value final sound holds done
  have quiet := calm _ _ _ done
  exact ⟨quiet.same.leased sound, lasting world _ quiet holds, quiet.same.kept⟩

theorem commit {transaction : Store -> Except StoreError (Value × Store)}
    (calm : forall store value final, transaction store = .ok (value, final) -> Calm store final) :
    Neutral cfg (TealDrive.commit transaction) := by
  intro assertion lasting
  refine commit_guided ?_ (fun _ holds => holds)
  intro world value final sound holds done
  have quiet := calm _ _ _ done
  exact ⟨quiet.same.leased sound, lasting world _ quiet holds, quiet.same.kept⟩

theorem query (read : Store -> Except StoreError Value) : Neutral cfg (TealDrive.query env read) := by
  refine transact ?_
  intro store value final done
  simp only [bind_eq_ok, pure_eq_ok, Prod.mk.injEq] at done
  rcases done with ⟨_, _, _, rfl⟩
  exact .refl store

theorem outside : Neutral cfg (TealDrive.outside env) := by
  refine transact ?_
  intro store value final done
  cases done
  exact .refl store

/-- The kernel's limits have no tenants. -/
theorem withNative {assertion : World -> Prop} (lasting : Lasting assertion) (uid bytes : Nat)
    (world : World) (sound : World.Leased cfg world) (holds : assertion world) :
    World.Leased cfg (world.withNative cfg uid bytes) ∧
      assertion (world.withNative cfg uid bytes) ∧
      World.UidsKept world (world.withNative cfg uid bytes) := by
  have calm : Calm world.store (world.withNative cfg uid bytes).store := by
    rw [World.withNative_store]
    exact .refl world.store
  exact ⟨calm.same.leased sound, lasting world _ calm holds, calm.same.kept⟩

theorem nativeSet (uid bytes : Nat) : Neutral cfg (TealDrive.nativeSet env cfg uid bytes) := by
  intro assertion lasting
  refine Guided.perform lasting.stable ?_ ?_ (withNative lasting uid bytes)
    (fun _ _ holds => holds)
  · intro world step _ _
    exact (world.move_calm env step).same.kept
  · intro world value final sound holds done
    cases done
    exact withNative lasting uid bytes world sound holds

theorem nativeSetHeld (uid bytes : Nat) : Neutral cfg (TealDrive.nativeSetHeld cfg uid bytes) := by
  intro assertion lasting
  refine Guided.perform (fun _ _ sound holds => ⟨sound, holds⟩) ?_ ?_ (withNative lasting uid bytes)
    (fun _ _ holds => holds)
  · intro world step _ _
    exact .refl world.store
  · intro world value final sound holds done
    cases done
    exact withNative lasting uid bytes world sound holds

/-! ### Shared parts -/

theorem rootOf (target : Account) : Neutral cfg (TealDrive.rootOf env cfg target) :=
  bind (check _) (fun _ => bind outside (fun _ => check _))

theorem ownReservation (parent : Account) (used : Nat) :
    Neutral cfg (TealDrive.ownReservation env cfg parent used) := by
  unfold TealDrive.ownReservation
  split
  · exact bind (rootOf parent) (fun _ => bind (query _) (fun _ => bind outside (fun _ => pure _)))
  · exact pure _

theorem effectiveLimit (id : Uuid) : Neutral cfg (TealDrive.effectiveLimit env id) :=
  bind (query _) (fun _ => pure _)

theorem committedLimit (id : Uuid) : Neutral cfg (TealDrive.committedLimit env id) :=
  bind (query _) (fun _ => check _)

theorem ensureOsIdentity (uid quota : Nat) :
    Neutral cfg (TealDrive.ensureOsIdentity env cfg uid quota) :=
  bind outside (fun _ => bind (check _) (fun _ => bind (nativeSet uid quota) (fun _ =>
    bind outside (fun _ => pure _))))

theorem checkNewName (name : Text) (taken : Bool) :
    Neutral cfg (TealDrive.checkNewName env cfg name taken) :=
  bind (query _) (fun _ => bind outside (fun _ => bind (check _) (fun _ =>
    bind (query _) (fun _ => bind (check _) (fun _ => bind (query _) (fun _ => check _))))))

theorem lowerParent (actor : Account) (quota oldLimit : Nat) (parent : Option Nat) :
    Neutral cfg (TealDrive.lowerParent env cfg actor quota oldLimit parent) := by
  cases parent with
  | none => exact pure _
  | some used =>
      exact bind (query _) (fun _ => bind (check _) (fun _ => bind (check _) (fun _ =>
        nativeSet _ _)))

theorem resumeChild (actor : Account) (parent : Option Nat) :
    Neutral cfg (TealDrive.resumeChild env cfg actor parent) := by
  cases parent with
  | none => exact pure _
  | some used =>
      exact bind (effectiveLimit _) (fun _ => bind (check _) (fun _ => nativeSet _ _))

theorem createdChild (actor : Account) (id : Uuid) :
    Neutral cfg (TealDrive.createdChild env actor id) :=
  bind (query _) (fun _ => bind (check _) (fun _ => pure _))

theorem createdAdmin (id : Uuid) : Neutral cfg (TealDrive.createdAdmin env id) :=
  bind (query _) (fun _ => bind (check _) (fun _ => pure _))

theorem raiseParent (parent : Option Account) :
    Neutral cfg (TealDrive.raiseParent env cfg parent) := by
  cases parent with
  | none => exact pure _
  | some owner => exact bind (committedLimit _) (fun _ => nativeSet _ _)

theorem cancelledOwner (seen : Surroundings) (owner : IntentOwner) :
    Neutral cfg (TealDrive.cancelledOwner env cfg seen owner) := by
  cases owner with
  | root => exact pure _
  | account id =>
      exact bind (query _) (fun _ => bind (ownReservation _ _) (fun _ => pure _))

/-! ### Changing quotas -/

/-- Rows are rewritten, and nothing is added. -/
theorem calm_of_update {store final : Store} {id : Uuid} {update : AccountRow -> AccountRow}
    (change : AccountsChange store.accounts final.accounts)
    (rows : final.accounts = store.accounts.modify id update)
    (intents : final.virtualCreate = store.virtualCreate)
    (retired : final.virtualUidRetired = store.virtualUidRetired) : Calm store final := by
  refine ⟨⟨change, ?_, intents, ?_⟩, retired⟩
  · intro other new found _
    rw [rows] at found
    by_cases same : other = id
    · subst same
      rw [Table.find_modify_self] at found
      rcases Option.map_eq_some_iff.mp found with ⟨row, present, _⟩
      exact ⟨row, present⟩
    · rw [Table.find_modify_of_ne _ same] at found
      exact ⟨new, found⟩
  · rw [retired]
    exact fun _ gone => gone

theorem clearSync (id : Uuid) : Neutral cfg (TealDrive.clearSync env id) := by
  refine transact ?_
  intro store value final done
  cases done
  exact ⟨.of_same rfl rfl rfl, rfl⟩

theorem changeQuota (now : Nat) (authority : Authority) (owner target : Account)
    (generation bytes old : Nat) (parent : Option Nat) :
    Neutral cfg
      (TealDrive.changeQuota env cfg now authority owner target generation bytes old parent) := by
  refine bind (query _) (fun remaining => bind (check _) (fun _ =>
    bind (provided _ (nativeSetHeld _ _)) (fun _ => bind (provided _ (nativeSetHeld _ _)) (fun _ =>
      bind (commit ?_) (fun _ => pure _)))))
  intro store updated final done
  have applied : (StoreOp.setChildQuotaWith now authority target.id generation bytes
      (fun _ => .ok ())).apply env store = .ok final := congrArg StoreOp.committed done
  have change := StoreOp.apply_accounts applied
  rcases setChildQuotaWith_ok done with ⟨_, _, _, rfl⟩
  exact calm_of_update change rfl rfl rfl

theorem setQuota (now : Nat) (authority : Authority) (target : Account) (generation bytes : Nat)
    (seen : Surroundings) :
    Neutral cfg (TealDrive.setQuota env cfg now authority target generation bytes seen) := by
  refine bind (check _) (fun _ => bind (check _) (fun _ => bind (check _) (fun _ =>
    bind (query _) (fun owner => bind (ownReservation _ _) (fun parent => bind (rootOf _) (fun _ =>
      bind outside (fun _ => bind (check _) (fun _ => bind (effectiveLimit _) (fun oldParent =>
        bind (query _) (fun _ => bind (check _) (fun _ => bind (check _) (fun _ =>
          bind (attempt (changeQuota _ _ _ _ _ _ _ _)) (fun result => ?_)))))))))))))
  cases result with
  | error problem =>
      exact bind (provided _ (bind (attempt (nativeSet _ _)) (fun _ => pure _))) (fun _ =>
        bind (provided _ (bind (attempt (nativeSet _ _)) (fun _ => pure _))) (fun _ => check _))
  | ok changed =>
      exact bind (nativeSet _ _) (fun _ => bind (provided _ (nativeSet _ _)) (fun _ =>
        bind (clearSync _) (fun _ => pure _)))

theorem changeBudget (target : Account) (bytes old : Nat) (held : Option Nat) :
    Neutral cfg (TealDrive.changeBudget env cfg target bytes old held) := by
  refine bind (query _) (fun _ => bind (check _) (fun _ =>
    bind (provided _ (nativeSetHeld _ _)) (fun _ => bind (commit ?_) (fun _ => pure _))))
  intro store value final done
  rcases setAdminBudgetWith_ok done with ⟨_, _, _, rfl⟩
  exact ⟨.of_same rfl rfl rfl, rfl⟩

theorem setBudget (id : Uuid) (bytes : Nat) (seen : Surroundings) :
    Neutral cfg (TealDrive.setBudget env cfg id bytes seen) := by
  refine bind (query _) (fun target => bind (check _) (fun _ => bind (ownReservation _ _) (fun held =>
    bind (effectiveLimit _) (fun old => bind (attempt (changeBudget _ _ _ _)) (fun result => ?_)))))
  cases result with
  | error problem =>
      exact bind (provided _ (bind (attempt (nativeSet _ _)) (fun _ => pure _))) (fun _ => check _)
  | ok remaining => exact provided _ (nativeSet _ _)

theorem changeOwn (now : Nat) (target : Account) (bytes old : Nat) (held : Option Nat) :
    Neutral cfg (TealDrive.changeOwn env cfg now target bytes old held) := by
  refine bind (query _) (fun _ => bind (check _) (fun _ =>
    bind (provided _ (nativeSetHeld _ _)) (fun _ => commit ?_)))
  intro store value final done
  have applied : (StoreOp.setAdminOwnWith now .root target.id bytes (fun _ => .ok ())).apply env
      store = .ok final := congrArg StoreOp.committed done
  have change := StoreOp.apply_accounts applied
  rcases setAdminOwnWith_ok done with ⟨_, _, rfl⟩
  exact calm_of_update change rfl rfl rfl

theorem setOwnQuota (now : Nat) (id : Uuid) (bytes : Nat) (seen : Surroundings) :
    Neutral cfg (TealDrive.setOwnQuota env cfg now id bytes seen) := by
  refine bind (check _) (fun _ => bind (query _) (fun target => bind (check _) (fun _ =>
    bind (ownReservation _ _) (fun held => bind (query _) (fun quota => bind (check _) (fun old =>
      bind (attempt (changeOwn _ _ _ _ _)) (fun result => ?_)))))))
  cases result with
  | error problem =>
      exact bind (provided _ (bind (attempt (nativeSet _ _)) (fun _ => pure _))) (fun _ => check _)
  | ok done => exact bind (provided _ (nativeSet _ _)) (fun _ => clearSync _)

end Neutral

/-! ## The allocator -/

/-- What the allocator promises about a uid it hands out. -/
structure Granted (cfg : AppConfig) (seen : Surroundings) (uid : Nat) : Prop where
  range : cfg.virtualUid uid
  avoids : forall range, range ∈ seen.blocked -> within range.1 range.2 uid = false

theorem Granted.of_chosen {cfg : AppConfig} {seen : Surroundings} {uid : Nat}
    (range : cfg.virtualUid uid)
    (unblocked : seen.blocked.any (fun range => within range.1 range.2 uid) = false) :
    Granted cfg seen uid := by
  refine ⟨range, ?_⟩
  intro blocked member
  exact Bool.eq_false_of_not_eq_true (List.any_eq_false.mp unblocked blocked member)

theorem gapsFrom_bounds {min max next : Nat} (above : min ≤ next) {ranges : List (Nat × Nat)}
    (below : forall range, range ∈ ranges -> range.1 ≤ max) {segment : Nat × Nat}
    (member : segment ∈ gapsFrom max next ranges) : min ≤ segment.1 ∧ segment.2 ≤ max := by
  induction ranges generalizing next with
  | nil =>
      unfold gapsFrom at member
      split at member
      · cases List.mem_singleton.mp member
        exact ⟨above, Nat.le_refl max⟩
      · exact absurd member List.not_mem_nil
  | cons range rest ih =>
      have further : min ≤ Nat.max next (range.2 + 1) := Nat.le_trans above (Nat.le_max_left _ _)
      have tail : forall other, other ∈ rest -> other.1 ≤ max :=
        fun other inside => below other (List.mem_cons_of_mem range inside)
      unfold gapsFrom at member
      split at member
      · rcases List.mem_cons.mp member with here | later
        · subst here
          have first := below range List.mem_cons_self
          exact ⟨above, by dsimp only; omega⟩
        · exact ih further tail later
      · exact ih further tail member

theorem gapsBetween_bounds {min max : Nat} (ordered : min ≤ max) {blocked : List (Nat × Nat)}
    {segment : Nat × Nat} (member : segment ∈ gapsBetween min max blocked) :
    min ≤ segment.1 ∧ segment.2 ≤ max := by
  refine gapsFrom_bounds (Nat.le_refl min) ?_ member
  intro range inside
  rw [List.mem_insertionSort] at inside
  rcases List.mem_map.mp inside with ⟨origin, kept, rfl⟩
  have overlaps := (List.mem_filter.mp kept).2
  rw [Bool.and_eq_true, decide_eq_true_eq, decide_eq_true_eq] at overlaps
  exact Nat.max_le.mpr ⟨overlaps.2, ordered⟩

/-- All candidates are virtual uids. -/
theorem candidates_range {cfg : AppConfig} {start uid : Nat} {blocked : List (Nat × Nat)}
    (ordered : cfg.webAccounts.virtualMinUid ≤ cfg.webAccounts.virtualMaxUid)
    (member : uid ∈ candidates cfg start blocked) : cfg.virtualUid uid := by
  have some_ := List.mem_of_mem_take member
  rcases List.mem_append.mp some_ with after | wrapped
  · rcases List.mem_flatMap.mp after with ⟨segment, kept, inside⟩
    have bounds := gapsBetween_bounds ordered (List.mem_filter.mp kept).1
    have number := mem_numbersIn.mp inside
    exact ⟨Nat.le_trans bounds.1 (Nat.le_trans (Nat.le_max_left _ _) number.1),
      Nat.le_trans number.2 bounds.2⟩
  · rcases List.mem_flatMap.mp wrapped with ⟨segment, kept, inside⟩
    have bounds := gapsBetween_bounds ordered (List.mem_filter.mp kept).1
    have number := mem_numbersIn.mp inside
    exact ⟨Nat.le_trans bounds.1 number.1,
      Nat.le_trans number.2 (Nat.le_trans (Nat.min_le_left _ _) bounds.2)⟩

/-- Nobody but the holder of the lock takes a uid. -/
theorem Unknown.lasting (uid : Nat) : Lasting (fun world => ¬ world.store.Known uid) := by
  rintro world later calm free (⟨id, new, found, virtual, sameUid⟩ | intent | gone)
  · rcases calm.same.before found virtual with ⟨row, present, kind, same⟩
    exact free (Or.inl ⟨id, row, present, kind, same.trans sameUid⟩)
  · rw [calm.same.intents] at intent
    exact free (Or.inr (Or.inl intent))
  · rw [calm.retired] at gone
    exact free (Or.inr (Or.inr gone))

section Allocating

variable {env : Environment} {cfg : AppConfig} {assertion : World -> Prop}

/-- A uid that is handed out is nobody's, and may be handed out. -/
def Offered (cfg : AppConfig) (seen : Surroundings) (assertion : World -> Prop) (uid : Nat)
    (world : World) : Prop :=
  (assertion world ∧ ¬ world.store.Known uid) ∧ Granted cfg seen uid

theorem firstFree_guided (seen : Surroundings) (uids : List Nat)
    (range : forall uid, uid ∈ uids -> cfg.virtualUid uid) (lasting : Lasting assertion) :
    Keeps cfg assertion (firstFree env cfg seen uids) (Offered cfg seen assertion) := by
  induction uids with
  | nil => exact Guided.ofExcept (fun _ impossible => nomatch impossible) (fun _ _ _ => trivial)
  | cons uid rest ih =>
      have tail := ih (fun other member => range other (List.mem_cons_of_mem uid member))
      refine Guided.via (fun taken world => assertion world ∧
        (taken = false -> ¬ world.store.Known uid)) ?_ ?_
      · refine query_guided lasting ?_ (fun _ _ => trivial)
        intro world taken holds read
        refine ⟨holds, ?_⟩
        intro free
        cases read
        exact unknown_of_free free
      intro taken
      have both : Lasting (fun world => assertion world ∧ (taken = false -> ¬ world.store.Known uid)) :=
        lasting.and ((Unknown.lasting uid).imp)
      refine Guided.bind (Neutral.outside.alone both) ?_
      intro _
      split
      · rename_i chosen
        rw [Bool.and_eq_true, Bool.and_eq_true, Bool.not_eq_true', Bool.not_eq_true'] at chosen
        have granted : Granted cfg seen uid :=
          .of_chosen (range uid List.mem_cons_self) chosen.1.2
        refine Guided.bind (Neutral.alone (Neutral.transact ?_) both) ?_
        · intro store value final done
          cases done
          exact ⟨.of_same rfl rfl rfl, rfl⟩
        intro _
        exact Guided.pure (fun _ _ holds => ⟨⟨holds.1, holds.2 chosen.1.1⟩, granted⟩)
      · exact tail.weaken (fun _ _ holds => holds.1) (fun _ _ _ done => done) (fun _ _ done => done)

theorem allocate_guided (seen : Surroundings) (lasting : Lasting assertion) :
    Keeps cfg assertion (allocate env cfg seen) (Offered cfg seen assertion) := by
  refine Guided.bind ((Neutral.query _).alone lasting) ?_
  intro cursor
  refine Guided.bind (Neutral.outside.alone lasting) ?_
  intro _
  refine Guided.bindFact (check_guided _) ?_
  intro _ inside
  rw [refuse_eq_ok, Bool.or_eq_false_iff, decide_eq_false_iff_not, decide_eq_false_iff_not] at inside
  refine firstFree_guided seen _ ?_ lasting
  intro uid member
  exact candidates_range (by omega) member

end Allocating

/-! ## Creating accounts -/

theorem Saved.lasting (key : IntentKey) (intent : Intent) : Lasting (Saved key intent) := by
  intro world later calm saved
  unfold Saved
  rw [calm.same.intents]
  exact saved

section Creating

variable {env : Environment} {cfg : AppConfig}

theorem Offered.lasting (cfg : AppConfig) (seen : Surroundings) (uid : Nat) :
    Lasting (Offered cfg seen (fun _ => True) uid) := by
  rintro world later calm ⟨⟨_, free⟩, granted⟩
  exact ⟨⟨trivial, Unknown.lasting uid world later calm free⟩, granted⟩

/-- A statement that stores an intent for an offered uid. -/
theorem reserve_guided {transaction : Store -> Except StoreError (Unit × Store)}
    {seen : Surroundings} (key : IntentKey) (intent : Intent) (open_ : intent.accountId = none)
    (inserts : forall store final, transaction store = .ok ((), final) ->
      store.virtualCreate.find key = none ∧
        final = { store with virtualCreate := store.virtualCreate.insert key intent }) :
    Keeps cfg (Offered cfg seen (fun _ => True) intent.uid) (transact env transaction)
      (fun _ => Saved key intent) := by
  refine transact_guided (Offered.lasting cfg seen intent.uid) ?_ (fun _ _ => trivial)
  rintro world value final sound ⟨⟨_, free⟩, granted⟩ done
  rcases inserts _ _ done with ⟨absent, rfl⟩
  exact ⟨Leased.reserve sound absent free open_ granted.range, Table.find_insert_self _ _ _,
    Leased.reserve_kept absent free⟩

/-- The end of a creation: the intent becomes the account it reserved for. -/
theorem complete_guided {id : Uuid} {now : Nat} {authority : Authority} {new : NewAccount}
    {hash : Option Text} {key : IntentKey} {intent : Intent} (open_ : intent.accountId = none)
    (virtual : new.kind = .virtual) (uid : new.uid = intent.uid) :
    Keeps cfg (Saved key intent)
      (transact env (Store.createRecord id now authority new hash (some (key, intent))))
      (fun _ _ => True) := by
  refine transact_guided (Saved.lasting key intent) ?_ (fun _ _ => trivial)
  intro world account final sound saved done
  rcases createRecord_ok done with ⟨budget, required, created, rfl⟩
  have inserted : Inserted world.store.accounts id (createdRow now new hash) :=
    inserted_of_created created
  exact ⟨Leased.complete sound saved open_ inserted virtual uid rfl rfl, trivial,
    Leased.complete_kept saved open_ inserted.absent uid rfl rfl rfl⟩

theorem completeChild_guided (id : Uuid) (now : Nat) (actor : Account) (name : Text) (quota : Nat)
    (hash : Text) (request : Uuid) {intent : Intent} (open_ : intent.accountId = none) :
    Keeps cfg (Saved ⟨.account actor.id, request⟩ intent)
      (completeChild env cfg id now actor name quota hash request intent) (fun _ _ => True) := by
  have lasting := Saved.lasting ⟨.account actor.id, request⟩ intent
  refine Guided.bind ((Neutral.ensureOsIdentity _ _).alone lasting) ?_
  intro home
  refine Guided.bind (Neutral.outside.alone lasting) ?_
  intro _
  exact complete_guided open_ rfl rfl

theorem completeAdmin_guided (id : Uuid) (now : Nat) (name : Text) (budget : Nat) (hash : Text)
    (request : Uuid) {intent : Intent} (open_ : intent.accountId = none) :
    Keeps cfg (Saved ⟨.root, request⟩ intent)
      (completeAdmin env cfg id now name budget hash request intent) (fun _ _ => True) := by
  have lasting := Saved.lasting ⟨.root, request⟩ intent
  refine Guided.bind ((Neutral.ensureOsIdentity _ _).alone lasting) ?_
  intro home
  refine Guided.bind (Neutral.outside.alone lasting) ?_
  intro _
  exact complete_guided open_ rfl rfl

theorem reserveChild_guided (actor : Account) (name : Text) (quota : Nat) (request : Uuid)
    (seen : Surroundings) (parent : Option Nat) :
    Keeps cfg (fun _ => True) (reserveChild env cfg actor name quota request seen parent)
      (fun intent world => Saved ⟨.account actor.id, request⟩ intent world ∧
        intent.accountId = none) := by
  refine Guided.bind ((Neutral.checkNewName _ _).alone Lasting.trivial_) ?_
  intro _
  refine Guided.bind ((Neutral.query _).alone Lasting.trivial_) ?_
  intro budget
  refine Guided.bind ((Neutral.check _).alone Lasting.trivial_) ?_
  intro _
  refine Guided.bind (allocate_guided seen Lasting.trivial_) ?_
  intro uid
  have offered := Offered.lasting cfg seen uid
  refine Guided.bind ((Neutral.effectiveLimit _).alone offered) ?_
  intro oldLimit
  refine Guided.bind ((Neutral.lowerParent actor quota oldLimit parent).alone offered) ?_
  intro _
  refine Guided.via (fun result world => result = .ok () ->
      Saved ⟨.account actor.id, request⟩ ⟨1, .account actor.id, name, quota, uid, none⟩ world) ?_ ?_
  · refine Guided.attempt (fun _ => True) ?_ (fun _ _ _ _ impossible => nomatch impossible)
    refine Guided.weaken (reserve_guided _
      ⟨1, .account actor.id, name, quota, uid, none⟩ rfl ?_) (fun _ _ holds => holds)
      (fun _ _ _ saved _ => saved) (fun _ _ _ => trivial)
    intro store final done
    rcases recordChildIntent_ok done with ⟨_, _, absent, written⟩
    exact ⟨absent, written⟩
  intro result
  cases result with
  | ok _ => exact Guided.pure (fun _ _ saved => ⟨saved rfl, rfl⟩)
  | error problem =>
      have cleanup : Neutral cfg (provided parent.isSome (do
          let _ ← attempt (nativeSet env cfg actor.uid oldLimit)
          return ())) :=
        Neutral.provided _ (Neutral.bind (Neutral.attempt (Neutral.nativeSet _ _))
          (fun _ => Neutral.pure _))
      refine Guided.bind ((cleanup.alone Lasting.trivial_).weaken (fun _ _ _ => trivial)
        (fun _ _ _ given => given) (fun _ _ given => given)) ?_
      intro _
      exact Guided.ofExcept (fun _ impossible => nomatch impossible) (fun _ _ _ => trivial)

theorem provision_guided (id : Uuid) (now : Nat) (actor : Account) (name : Text) (quota : Nat)
    (hash : Text) (request : Uuid) (seen : Surroundings) :
    Keeps cfg (fun _ => True) (provision env cfg id now actor name quota hash request seen)
      (fun _ _ => True) := by
  refine Guided.bind ((Neutral.check _).alone Lasting.trivial_) ?_
  intro _
  refine Guided.bind ((Neutral.check _).alone Lasting.trivial_) ?_
  intro _
  refine Guided.bind (Neutral.outside.alone Lasting.trivial_) ?_
  intro _
  refine Guided.via (fun saved world => forall intent, saved = some intent ->
    Saved ⟨.account actor.id, request⟩ intent world) (query_guided Lasting.trivial_ ?_
      (fun _ _ => trivial)) ?_
  · intro world saved _ read
    cases read
    exact fun _ found => found
  intro saved
  cases saved with
  | none =>
      refine Guided.weaken ?_ (fun _ _ _ => trivial) (fun _ _ _ done => done) (fun _ _ done => done)
      refine Guided.bind ((Neutral.ownReservation _ _).alone Lasting.trivial_) ?_
      intro parent
      refine Guided.bind (reserveChild_guided actor name quota request seen parent) ?_
      intro intent
      exact Guided.given (completeChild_guided id now actor name quota hash request)
  | some intent =>
      refine Guided.weaken ?_ (fun _ _ saved => saved intent rfl) (fun _ _ _ done => done)
        (fun _ _ done => done)
      have lasting := Saved.lasting ⟨.account actor.id, request⟩ intent
      refine Guided.bind ((Neutral.check _).alone lasting) ?_
      intro _
      cases completed : intent.accountId with
      | some created =>
          exact ((Neutral.createdChild actor created).alone lasting).weaken (fun _ _ given => given)
            (fun _ _ _ _ => trivial) (fun _ _ given => given)
      | none =>
          refine Guided.bind ((Neutral.ownReservation _ _).alone lasting) ?_
          intro parent
          refine Guided.bind ((Neutral.resumeChild _ _).alone lasting) ?_
          intro _
          exact completeChild_guided id now actor name quota hash request completed

theorem reserveAdmin_guided (name : Text) (budget : Nat) (request : Uuid) (seen : Surroundings) :
    Keeps cfg (fun _ => True) (reserveAdmin env cfg name budget request seen)
      (fun intent world => Saved ⟨.root, request⟩ intent world ∧ intent.accountId = none) := by
  refine Guided.bind ((Neutral.checkNewName _ _).alone Lasting.trivial_) ?_
  intro _
  refine Guided.bind (allocate_guided seen Lasting.trivial_) ?_
  intro uid
  refine Guided.via (fun _ => Saved ⟨.root, request⟩ ⟨1, .root, name, budget, uid, none⟩) ?_ ?_
  · refine reserve_guided ⟨.root, request⟩ ⟨1, .root, name, budget, uid, none⟩ rfl ?_
    intro store final done
    rcases recordAdminIntent_ok done with ⟨_, absent, written⟩
    exact ⟨absent, written⟩
  · intro _
    exact Guided.pure (fun _ _ saved => ⟨saved, rfl⟩)

theorem createAdmin_guided (id : Uuid) (now : Nat) (name : Text) (budget : Nat) (hash : Text)
    (request : Uuid) (seen : Surroundings) :
    Keeps cfg (fun _ => True) (createAdmin env cfg id now name budget hash request seen)
      (fun _ _ => True) := by
  refine Guided.bind ((Neutral.check _).alone Lasting.trivial_) ?_
  intro _
  refine Guided.bind ((Neutral.check _).alone Lasting.trivial_) ?_
  intro _
  refine Guided.bind (Neutral.outside.alone Lasting.trivial_) ?_
  intro _
  refine Guided.via (fun saved world => forall intent, saved = some intent ->
    Saved ⟨.root, request⟩ intent world) (query_guided Lasting.trivial_ ?_
      (fun _ _ => trivial)) ?_
  · intro world saved _ read
    cases read
    exact fun _ found => found
  intro saved
  cases saved with
  | none =>
      refine Guided.weaken ?_ (fun _ _ _ => trivial) (fun _ _ _ done => done) (fun _ _ done => done)
      refine Guided.bind (reserveAdmin_guided name budget request seen) ?_
      intro intent
      exact Guided.given (completeAdmin_guided id now name budget hash request)
  | some intent =>
      refine Guided.weaken ?_ (fun _ _ saved => saved intent rfl) (fun _ _ _ done => done)
        (fun _ _ done => done)
      have lasting := Saved.lasting ⟨.root, request⟩ intent
      refine Guided.bind ((Neutral.check _).alone lasting) ?_
      intro _
      cases completed : intent.accountId with
      | some created =>
          exact ((Neutral.createdAdmin created).alone lasting).weaken (fun _ _ given => given)
            (fun _ _ _ _ => trivial) (fun _ _ given => given)
      | none => exact completeAdmin_guided id now name budget hash request completed

end Creating

/-! ## Cancelling and purging -/

section Leaving

variable {env : Environment} {cfg : AppConfig}

theorem cancelPending_guided (now : Nat) (key : IntentKey) (seen : Surroundings) :
    Keeps cfg (fun _ => True) (cancelPending env cfg now key seen) (fun _ _ => True) := by
  refine Guided.via (fun intent => Saved key intent)
    (query_guided Lasting.trivial_ ?_ (fun _ _ => trivial)) ?_
  · intro world intent _ read
    exact okOr_eq_ok.mp read
  intro intent
  have lasting := Saved.lasting key intent
  refine Guided.bindFact (check_guided _) ?_
  intro _ accepted
  simp only [refuse_eq_ok, Bool.or_eq_false_iff] at accepted
  have open_ : intent.accountId = none := Option.not_isSome_iff_eq_none.mp
    (Bool.eq_false_iff.mp accepted.1.1.2)
  refine Guided.bind (Neutral.outside.alone lasting) ?_
  intro _
  refine Guided.bind ((Neutral.check _).alone lasting) ?_
  intro _
  refine Guided.bind ((Neutral.cancelledOwner _ _).alone lasting) ?_
  intro parent
  refine Guided.via (fun _ _ => True) (transact_guided lasting ?_ (fun _ _ => trivial)) ?_
  · intro world value final sound saved done
    cases done
    rcases cancelIntent_eq world.store now intent.uid key with ⟨retired, retires, written⟩
    rw [written]
    exact ⟨Leased.cancel sound saved open_, trivial,
      Leased.cancel_kept sound saved open_ retires⟩
  · intro _
    exact (Neutral.raiseParent _).alone Lasting.trivial_

/-- The uid of an account that stays is retired. -/
theorem Undisturbed.of_retired {store final : Store} {uid : Nat}
    (retires : Retires store.virtualUidRetired uid final.virtualUidRetired)
    (change : AccountsChange store.accounts final.accounts)
    (origin : forall id new, final.accounts.find id = some new ->
      ∃ row, store.accounts.find id = some row)
    (intents : final.virtualCreate = store.virtualCreate) : Undisturbed store final :=
  ⟨change, fun id new found _ => origin id new found, intents, retires.kept⟩

theorem clearHome_guided (now : Nat) (target : Account) (intent : Option (Nat × Text)) :
    Keeps cfg (fun _ => True) (clearHome env cfg now target intent) (fun _ _ => True) := by
  refine Guided.bind ((Neutral.rootOf _).alone Lasting.trivial_) ?_
  intro _
  refine Guided.bind (Neutral.outside.alone Lasting.trivial_) ?_
  intro _
  refine Guided.via (fun _ _ => True) (Guided.provided (fun _ => ?_) (fun _ _ _ _ => trivial)) ?_
  · refine transact_guided Lasting.trivial_ ?_ (fun _ _ => trivial)
    intro world value final sound _ done
    rcases recordPurgeIntent_ok done with ⟨uid, intents, retired, retires, rfl⟩
    have same : Undisturbed world.store { world.store with
        virtualPurgeIntent := intents, virtualUidRetired := retired } :=
      .of_retired retires .same (fun _ new found => ⟨new, found⟩) rfl
    exact ⟨same.leased sound, trivial, same.kept⟩
  · intro _
    exact Neutral.outside.alone Lasting.trivial_

theorem purge_guided (now : Nat) (id : Uuid) (uid : Nat) :
    Keeps cfg (fun _ => True) (transact env (Store.purge now id uid)) (fun _ _ => True) := by
  refine transact_guided Lasting.trivial_ ?_ (fun _ _ => trivial)
  intro world value final sound _ done
  have applied : (StoreOp.purge now id uid).apply env world.store = .ok final :=
    congrArg StoreOp.committed done
  have change := StoreOp.apply_accounts applied
  rcases purge_ok done with ⟨_, _, retired, retires, rfl⟩
  have same : Undisturbed world.store _ := .of_retired retires change (by
    intro other new found
    by_cases here : other = id
    · subst here
      rcases Option.map_eq_some_iff.mp ((Table.find_modify_self _).symm.trans found) with
        ⟨row, present, _⟩
      exact ⟨row, present⟩
    · exact ⟨new, (Table.find_modify_of_ne _ here).symm.trans found⟩) rfl
  exact ⟨same.leased sound, trivial, same.kept⟩

theorem purgeOne_guided (now : Nat) (seen : Surroundings) (id : Uuid) :
    Keeps cfg (fun _ => True) (purgeOne env cfg now seen id) (fun _ _ => True) := by
  refine Guided.bind ((Neutral.query _).alone Lasting.trivial_) ?_
  intro target
  refine Guided.bind ((Neutral.check _).alone Lasting.trivial_) ?_
  intro ownerId
  refine Guided.bind ((Neutral.query _).alone Lasting.trivial_) ?_
  intro owner
  refine Guided.bind ((Neutral.ownReservation _ _).alone Lasting.trivial_) ?_
  intro parent
  refine Guided.bind ((Neutral.query _).alone Lasting.trivial_) ?_
  intro intent
  refine Guided.bind ((Neutral.check _).alone Lasting.trivial_) ?_
  intro _
  refine Guided.bind (Neutral.outside.alone Lasting.trivial_) ?_
  intro _
  refine Guided.bind ((Neutral.check _).alone Lasting.trivial_) ?_
  intro _
  refine Guided.via (fun _ _ => True) (Guided.provided (fun _ => clearHome_guided now target intent)
    (fun _ _ _ _ => trivial)) ?_
  intro _
  refine Guided.bind (Neutral.outside.alone Lasting.trivial_) ?_
  intro _
  refine Guided.bind (purge_guided now id target.uid) ?_
  intro _
  exact (Neutral.raiseParent _).alone Lasting.trivial_

theorem purgeDeleted_guided (now : Nat) (seen : Surroundings) :
    Keeps cfg (fun _ => True) (purgeDeleted env cfg now seen) (fun _ _ => True) := by
  have each : forall ids, Keeps cfg (fun _ => True) (purgeEach env cfg now seen ids)
      (fun _ _ => True) := by
    intro ids
    induction ids with
    | nil => exact Guided.pure (fun _ _ _ => trivial)
    | cons id rest ih => exact Guided.bind (purgeOne_guided now seen id) (fun _ => ih)
  refine Guided.bind ((Neutral.check _).alone Lasting.trivial_) ?_
  intro _
  refine Guided.bind ((Neutral.query _).alone Lasting.trivial_) ?_
  intro ids
  exact each ids

end Leaving

/-! ## Whole runs -/

section Runs

variable {env : Environment} {cfg : AppConfig}

theorem Call.run_guided (call : Call) :
    Keeps cfg (fun _ => True) (call.run env cfg) (fun _ _ => True) := by
  have discard : forall {Value : Type} {program : Provisioning Value},
      Keeps cfg (fun _ => True) program (fun _ _ => True) ->
      Keeps cfg (fun _ => True) (do let _ ← program; return ()) (fun _ _ => True) := by
    intro Value program holds
    exact Guided.bind holds (fun _ => Guided.pure (fun _ _ _ => trivial))
  cases call with
  | provision id now actor name quota hash request seen =>
      exact discard (provision_guided id now actor name quota hash request seen)
  | createAdmin id now name budget hash request seen =>
      exact discard (createAdmin_guided id now name budget hash request seen)
  | setQuota now authority target generation bytes seen =>
      exact discard ((Neutral.setQuota now authority target generation bytes seen).alone
        Lasting.trivial_)
  | setBudget id bytes seen => exact (Neutral.setBudget id bytes seen).alone Lasting.trivial_
  | setOwnQuota now id bytes seen =>
      exact (Neutral.setOwnQuota now id bytes seen).alone Lasting.trivial_
  | cancelPending now key seen => exact cancelPending_guided now key seen
  | purgeDeleted now seen => exact purgeDeleted_guided now seen

/-- Every world of a run is sound, and related to all later ones. -/
theorem visited_ordered (env : Environment) {world : World} (sound : World.Leased cfg world)
    (sessions : List Session) :
    (visited env cfg world sessions).Pairwise World.UidsKept ∧
      forall passed, passed ∈ visited env cfg world sessions ->
        World.Leased cfg passed ∧ World.UidsKept world passed := by
  induction sessions generalizing world with
  | nil =>
      refine ⟨List.pairwise_singleton _ world, ?_⟩
      intro passed member
      rw [List.mem_singleton.mp member]
      exact ⟨sound, .refl world.store⟩
  | cons session rest ih =>
      have quiet : Stable (World.move env) (World.Leased cfg) (fun _ => True) :=
        Lasting.trivial_.stable
      have steps : forall world step, World.Leased cfg world -> True ->
          World.UidsKept world (world.move env step) :=
        fun world step _ _ => (world.move_calm env step).same.kept
      rcases quiet.path sound trivial session.idle with ⟨idle, locked, _⟩
      rcases Faults.path_ordered quiet steps sound trivial session.idle with ⟨before, reaches⟩
      have keeps : Keeps cfg (fun _ => True) (session.call.run env cfg) (fun _ _ => True) :=
        Call.run_guided session.call
      have run := keeps.1 session.events _ locked trivial
      have order := keeps.2 session.events _ locked trivial
      rcases ih run.world with ⟨later, sounds⟩
      have during : forall first, first ∈ world :: Faults.path (World.move env) world session.idle ->
          forall second, second ∈ (session.behaviour env cfg world).visited ->
            World.UidsKept first second := by
        intro first early second inside
        exact trans_of World.UidsKept (reaches first early)
          (List.rel_of_pairwise_cons order.visited inside)
      have ends : forall first, first ∈ (world :: Faults.path (World.move env) world session.idle) ++
          (session.behaviour env cfg world).visited ->
            World.UidsKept first (session.behaviour env cfg world).world := by
        intro first member
        rcases List.mem_append.mp member with early | inside
        · exact trans_of World.UidsKept (reaches first early) (order.world _ List.mem_cons_self)
        · exact order.world first (List.mem_cons_of_mem _ inside)
      have pairs : ((world :: Faults.path (World.move env) world session.idle) ++
          (session.behaviour env cfg world).visited ++
          visited env cfg (session.behaviour env cfg world).world rest).Pairwise World.UidsKept := by
        rw [List.pairwise_append, List.pairwise_append]
        refine ⟨⟨before, List.Pairwise.of_cons order.visited, during⟩, later, ?_⟩
        intro first early second next
        exact trans_of World.UidsKept (ends first early) (sounds second next).2
      refine ⟨pairs, ?_⟩
      intro passed member
      rcases List.mem_cons.mp member with here | further
      · rw [here]
        exact ⟨sound, .refl world.store⟩
      · refine ⟨?_, List.rel_of_pairwise_cons pairs further⟩
        rcases List.mem_append.mp further with early | next
        · rcases List.mem_append.mp early with first | inside
          · exact idle passed first
          · exact run.visited passed inside
        · exact (sounds passed next).1

end Runs

/-! ## What the allocator hands out -/

/-- Without an invariant and without assertions nothing can go wrong. -/
theorem unguarded {Value : Type} (program : Provisioning Value) {before : World -> Prop} :
    Faults.Triple (fun _ => True) before program (fun _ _ => True) (fun _ => True) :=
  fun _ _ _ _ => ⟨fun _ _ => trivial, trivial, fun _ _ => trivial, fun _ _ => trivial⟩

theorem firstFree_granted {env : Environment} {cfg : AppConfig} (seen : Surroundings)
    (uids : List Nat) (range : forall uid, uid ∈ uids -> cfg.virtualUid uid) :
    Faults.Triple (fun _ => True) (fun _ => True) (firstFree env cfg seen uids)
      (fun uid _ => Granted cfg seen uid) (fun _ => True) := by
  induction uids with
  | nil => exact Faults.Triple.ofExcept (fun _ impossible => nomatch impossible) (fun _ _ _ => trivial)
  | cons uid rest ih =>
      refine Faults.Triple.bind (unguarded _) (fun taken => Faults.Triple.bind (unguarded _) ?_)
      intro _
      split
      · rename_i chosen
        rw [Bool.and_eq_true, Bool.and_eq_true, Bool.not_eq_true', Bool.not_eq_true'] at chosen
        refine Faults.Triple.bind (unguarded _) (fun _ => Faults.Triple.pure (fun _ _ _ => ?_))
        exact Granted.of_chosen (range uid List.mem_cons_self) chosen.1.2
      · exact ih (fun other member => range other (List.mem_cons_of_mem uid member))

/-- Whatever happens beside it, the allocator hands out virtual uids outside the
ranges it was told to avoid. -/
theorem allocate_granted {env : Environment} {cfg : AppConfig} {seen : Surroundings}
    {events : List (Faults.Event Move StoreError)} {world : World} {uid : Nat}
    (returned : (allocate env cfg seen events world).ending = .returned uid) :
    Granted cfg seen uid := by
  have triple : Faults.Triple (fun _ => True) (fun _ => True) (allocate env cfg seen)
      (fun uid _ => Granted cfg seen uid) (fun _ => True) := by
    refine Faults.Triple.bind (unguarded _) (fun cursor => Faults.Triple.bind (unguarded _) ?_)
    intro _
    refine Faults.Triple.bindFact (Faults.Triple.ofExcept (fun _ same _ _ holds => ⟨holds, same⟩)
      (fun _ _ _ => trivial)) ?_
    intro _ inside
    rw [refuse_eq_ok, Bool.or_eq_false_iff, decide_eq_false_iff_not, decide_eq_false_iff_not]
      at inside
    refine firstFree_granted seen _ ?_
    intro uid member
    exact candidates_range (by omega) member
  exact (triple events world trivial trivial).returned uid returned

/-- Over every run of provisioning, with any failures and deaths between the
steps, in which no Linux account with a virtual uid is enrolled: the allocator
hands out virtual uids outside the ranges it was told to avoid; whatever is bound
to an intent or to a virtual account is one of them; and two moments of the run
never disagree about the tenant of a uid, nor does a uid whose intent was
cancelled ever get a tenant again. -/
theorem uids_never_shared (env : Environment) (cfg : AppConfig) (dummyPasswordHash : Text)
    (sessions : List Session)
    (apart : forall world, world ∈ visited env cfg (World.initial dummyPasswordHash) sessions ->
      Apart cfg world.store) :
    (forall seen events world uid, (allocate env cfg seen events world).ending = .returned uid ->
      Granted cfg seen uid) ∧
    (forall world, world ∈ visited env cfg (World.initial dummyPasswordHash) sessions ->
      Consistent cfg world.store world.store ∧
      (forall key intent, world.store.virtualCreate.find key = some intent ->
        cfg.virtualUid intent.uid) ∧
      forall id row, world.store.accounts.find id = some row -> row.kind = .virtual ->
        cfg.virtualUid row.uid) ∧
    (visited env cfg (World.initial dummyPasswordHash) sessions).Pairwise
      (fun earlier later => Consistent cfg earlier.store later.store) := by
  have initial : World.Leased cfg (World.initial dummyPasswordHash) := .initial cfg dummyPasswordHash
  rcases visited_ordered env initial sessions with ⟨pairs, sounds⟩
  refine ⟨fun _ _ _ _ => allocate_granted, ?_, ?_⟩
  · intro world member
    have sound := (sounds world member).1
    refine ⟨Leased.consistent sound sound (apart world member) (.refl world.store), sound.range, ?_⟩
    intro id row found virtual
    rcases sound.origin id row found virtual with ⟨key, intent, present, given⟩
    rcases sound.completed key intent id present given with ⟨same, sameFound, _, uid⟩
    cases sameFound.symm.trans found
    rw [uid]
    exact sound.range key intent present
  · refine pairs.imp_of_mem ?_
    intro earlier later first second kept
    exact Leased.consistent (sounds earlier first).1 (sounds later second).1 (apart later second) kept

/-! ## A cancelled request that is made again -/

namespace Snapshot

/-- A request for an administrator, whose process dies after some steps. -/
def request (steps : Nat) : Session :=
  ⟨[.commit (.setPool .root 1048576)], .createAdmin 1 0 "adm".toList 1048576 [] 7 surroundings,
    List.replicate steps ⟨[], .done⟩⟩

/-- The process dies when the intent is stored; the intent is cancelled, and the
same request is made again. -/
def again : List Session :=
  [request 13, ⟨[], .cancelPending 0 ⟨.root, 7⟩ surroundings, smooth⟩, request 60]

end Snapshot

/-- Where all rows are virtual, no Linux account is in the way. -/
theorem apart_of_virtual {cfg : AppConfig} {store : Store}
    (virtual : store.accounts.rows.all (fun entry => entry.2.kind == .virtual) = true) :
    Apart cfg store := by
  intro id row found linux _
  have member := List.all_eq_true.mp virtual _ (Table.find_eq_some_iff.mp found)
  rw [linux] at member
  cases member

open Snapshot in
theorem uids_never_shared_again :
    ((after environment config (World.initial []) again).store.accounts.find 1).map
        (fun row => row.uid) = some 200001 ∧
      ((after environment config (World.initial []) again).store.virtualUidRetired.find
        200000).isSome = true ∧
      (visited environment config (World.initial []) again).Pairwise
        (fun earlier later => Consistent config earlier.store later.store) := by
  refine ⟨by decide, by decide, ?_⟩
  have virtual : (visited environment config (World.initial []) again).all
      (fun world => world.store.accounts.rows.all (fun entry => entry.2.kind == .virtual)) =
        true := by decide
  refine (uids_never_shared environment config [] again ?_).2.2
  intro world member
  exact apart_of_virtual (List.all_eq_true.mp virtual world member)

end TealDrive
