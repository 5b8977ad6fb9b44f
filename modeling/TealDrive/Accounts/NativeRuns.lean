import TealDrive.Accounts.NativeLimits

namespace TealDrive

open Faults (Triple Stable attempt provided ofExcept)
open Store

/-!
# Every run keeps the kernel limits below the allocations

Each program of `Provision` satisfies a triple whose invariant is `Bounded`.
Assertions between the steps are steady: they survive the operations that run
beside the program.  The transaction of a quota change is the only place where
an assertion needs more, and there nobody else writes.
-/

/-! ## Rules for the steps -/

/-- The assertion depends on the allocations and on the kernel only. -/
def Steady (assertion : World -> Prop) : Prop :=
  forall world later, SameQuotas world.store later.store -> later.native = world.native ->
    assertion world -> assertion later

theorem World.move_native (env : Environment) (world : World) (step : Move) :
    (world.move env step).native = world.native := by
  cases step with
  | commit op =>
      change (if op.quiet then _ else _ : World).native = _
      split <;> rfl
  | get id =>
      cases read : world.store.account id with
      | ok account => simp only [World.move, read]
      | error problem => simp only [World.move, read]

section Rules

variable {env : Environment} {cfg : AppConfig} {Value : Type} {before broken : World -> Prop}

theorem Steady.stable (steady : Steady before) :
    Stable (World.move env) (Bounded cfg) before := by
  intro world step sound holds
  have moved : Bounded cfg (world.move env step) ∧
      SameQuotas world.store (world.move env step).store := sound.move step
  exact ⟨moved.1, steady world _ moved.2 (World.move_native env world step) holds⟩

theorem stable_still : Stable World.still (Bounded cfg) before :=
  fun _ _ sound holds => ⟨sound, holds⟩

theorem transact_rule {transaction : Store -> Except StoreError (Value × Store)}
    {after : Value -> World -> Prop} (steady : Steady before)
    (acts : forall world value final, Bounded cfg world -> before world ->
      transaction world.store = .ok (value, final) ->
      Bounded cfg { world with store := final } ∧ after value { world with store := final })
    (fails : forall world, Bounded cfg world -> before world -> broken world) :
    Triple (Bounded cfg) before (transact env transaction) after broken := by
  refine Triple.perform steady.stable ?_ (fun world sound holds => ⟨sound, fails world sound holds⟩)
    fails
  intro world value final sound holds done
  simp only [Outcome.bind_eq_ok, Outcome.pure_eq_ok, Prod.mk.injEq] at done
  rcases done with ⟨⟨result, store⟩, committed, sameValue, sameWorld⟩
  subst sameValue
  subst sameWorld
  exact acts world result store sound holds committed

theorem commit_rule {transaction : Store -> Except StoreError (Value × Store)}
    {after : Value -> World -> Prop}
    (acts : forall world value final, Bounded cfg world -> before world ->
      transaction world.store = .ok (value, final) ->
      Bounded cfg { world with store := final } ∧ after value { world with store := final })
    (fails : forall world, Bounded cfg world -> before world -> broken world) :
    Triple (Bounded cfg) before (commit transaction) after broken := by
  refine Triple.perform stable_still ?_ (fun world sound holds => ⟨sound, fails world sound holds⟩)
    fails
  intro world value final sound holds done
  simp only [Outcome.bind_eq_ok, Outcome.pure_eq_ok, Prod.mk.injEq] at done
  rcases done with ⟨⟨result, store⟩, committed, sameValue, sameWorld⟩
  subst sameValue
  subst sameWorld
  exact acts world result store sound holds committed

theorem query_rule {read : Store -> Except StoreError Value} {after : Value -> World -> Prop}
    (steady : Steady before)
    (reads : forall world value, Bounded cfg world -> before world ->
      read world.store = .ok value -> after value world)
    (fails : forall world, Bounded cfg world -> before world -> broken world) :
    Triple (Bounded cfg) before (query env read) after broken := by
  refine transact_rule steady ?_ fails
  intro world value final sound holds done
  simp only [Outcome.bind_eq_ok, Outcome.pure_eq_ok, Prod.mk.injEq] at done
  rcases done with ⟨result, answered, sameValue, sameStore⟩
  subst sameValue
  subst sameStore
  exact ⟨sound, reads world result sound holds answered⟩

theorem outside_rule (steady : Steady before)
    (fails : forall world, Bounded cfg world -> before world -> broken world) :
    Triple (Bounded cfg) before (outside env) (fun _ => before) broken := by
  refine transact_rule steady ?_ fails
  intro world value final sound holds done
  cases done
  exact ⟨sound, holds⟩

theorem check_rule {outcome : Except StoreError Value}
    (fails : forall world, Bounded cfg world -> before world -> broken world) :
    Triple (Bounded cfg) before (ofExcept outcome : Provisioning Value)
      (fun value world => before world ∧ outcome = .ok value) broken :=
  Triple.ofExcept (fun _ same _ _ holds => ⟨holds, same⟩) fails

/-- A limit is applied when the store promises it. -/
theorem nativeSet_rule {uid bytes : Nat} {after : World -> Prop} (steady : Steady before)
    (may : forall world, Bounded cfg world -> before world -> MayApply world.store uid bytes)
    (finish : forall world, Bounded cfg world -> before world ->
      Bounded cfg (world.withNative cfg uid bytes) -> after (world.withNative cfg uid bytes))
    (fails : forall world, Bounded cfg world -> before world ->
      broken world ∧ broken (world.withNative cfg uid bytes)) :
    Triple (Bounded cfg) before (nativeSet env cfg uid bytes) (fun _ => after) broken := by
  refine Triple.perform steady.stable ?_ ?_ (fun world sound holds => (fails world sound holds).1)
  · intro world value final sound holds done
    cases done
    have bounded := sound.withNative (may world sound holds)
    exact ⟨bounded, finish world sound holds bounded⟩
  · intro world sound holds
    exact ⟨sound.withNative (may world sound holds), (fails world sound holds).2⟩

theorem nativeSetHeld_rule {uid bytes : Nat} {after : World -> Prop}
    (may : forall world, Bounded cfg world -> before world -> MayApply world.store uid bytes)
    (finish : forall world, Bounded cfg world -> before world ->
      Bounded cfg (world.withNative cfg uid bytes) -> after (world.withNative cfg uid bytes))
    (fails : forall world, Bounded cfg world -> before world ->
      broken world ∧ broken (world.withNative cfg uid bytes)) :
    Triple (Bounded cfg) before (nativeSetHeld cfg uid bytes) (fun _ => after) broken := by
  refine Triple.perform stable_still ?_ ?_ (fun world sound holds => (fails world sound holds).1)
  · intro world value final sound holds done
    cases done
    have bounded := sound.withNative (may world sound holds)
    exact ⟨bounded, finish world sound holds bounded⟩
  · intro world sound holds
    exact ⟨sound.withNative (may world sound holds), (fails world sound holds).2⟩

end Rules

/-! ## Assertions -/

/-- An account the program read, and the row it has now. -/
def Reads (account : Account) (world : World) : Prop :=
  ∃ row, world.store.accounts.find account.id = some row ∧ row.kind = account.kind ∧
    row.uid = account.uid

/-- A virtual account with exactly this allocation. -/
def Allots (id : Uuid) (uid bytes : Nat) (world : World) : Prop :=
  ∃ row, world.store.accounts.find id = some row ∧ row.kind = .virtual ∧ row.uid = uid ∧
    world.store.limitOf id row = bytes

/-- The kernel's limit of a uid, if there is one. -/
def Under (native : Nat -> Option Nat) (uid bytes : Nat) : Prop :=
  forall limit, native uid = some limit -> limit ≤ bytes

theorem Reads.steady (account : Account) : Steady (Reads account) := by
  rintro world later same _ ⟨row, found, kind, uid⟩
  rcases same.kept _ row found with ⟨new, newFound, continues, _⟩
  exact ⟨new, newFound, continues.kind.trans kind, continues.uid.trans uid⟩

theorem Allots.steady (id : Uuid) (uid bytes : Nat) : Steady (Allots id uid bytes) := by
  rintro world later same _ ⟨row, found, virtual, sameUid, limit⟩
  rcases same.kept _ row found with ⟨new, newFound, continues, quota⟩
  refine ⟨new, newFound, continues.kind.trans virtual, continues.uid.trans sameUid, ?_⟩
  rw [same.limitOf virtual continues quota]
  exact limit

theorem Promises.steady (id : Uuid) (uid bytes : Nat) :
    Steady (fun world => world.store.Promises id uid bytes) :=
  fun _ _ same _ promised => same.promises promised

theorem Steady.and {first second : World -> Prop} (left : Steady first) (right : Steady second) :
    Steady (fun world => first world ∧ second world) :=
  fun world later same native both =>
    ⟨left world later same native both.1, right world later same native both.2⟩

theorem Steady.imp {condition : Prop} {assertion : World -> Prop} (steady : Steady assertion) :
    Steady (fun world => condition -> assertion world) :=
  fun world later same native holds given => steady world later same native (holds given)

theorem Steady.true_ : Steady (fun _ => True) :=
  fun _ _ _ _ given => given

theorem Allots.promises_of_le {id : Uuid} {uid bytes amount : Nat} {world : World}
    (allots : Allots id uid bytes world) (below : amount ≤ bytes) :
    world.store.Promises id uid amount := by
  rcases allots with ⟨row, found, virtual, sameUid, limit⟩
  exact ⟨row, found, virtual, sameUid, limit.symm ▸ below⟩

theorem Allots.promises {id : Uuid} {uid bytes : Nat} {world : World}
    (allots : Allots id uid bytes world) : world.store.Promises id uid bytes :=
  allots.promises_of_le (Nat.le_refl bytes)

/-- The limit in force is covered by the allocation. -/
theorem Allots.under {cfg : AppConfig} {world : World} (sound : Bounded cfg world) {id : Uuid}
    {uid bytes : Nat} (allots : Allots id uid bytes world)
    (unpurged : world.store.virtualPurged.find id = none) : Under world.native uid bytes := by
  rcases allots with ⟨row, found, virtual, sameUid, limit⟩
  intro amount applied
  rw [← limit]
  exact sound.within id row amount found virtual unpurged (sameUid ▸ applied)

theorem under_withNative {cfg : AppConfig} {world : World} {uid bytes : Nat}
    (sound : Bounded cfg (world.withNative cfg uid bytes)) :
    Under (world.withNative cfg uid bytes).native uid bytes := by
  intro limit applied
  rcases World.withNative_native applied with ⟨_, below, _⟩ | ⟨_, disabled⟩
  · exact below
  · have nothing := sound.off (disabled rfl) uid
    rw [nothing] at applied
    cases applied

/-- Reading the effective quota of an account the program knows. -/
theorem effective_of_reads {cfg : AppConfig} {world : World} (sound : Bounded cfg world)
    {account : Account} {quota : Option Nat} (reads : Reads account world)
    (read : world.store.effectiveQuota account.id = .ok quota) (virtual : account.kind = .virtual) :
    ∃ bytes, quota = some bytes ∧ Allots account.id account.uid bytes world := by
  rcases reads with ⟨row, found, kind, uid⟩
  have effective := effectiveQuota_of_virtual sound.allocated found (kind.trans virtual)
  rw [effective] at read
  cases read
  exact ⟨_, rfl, row, found, kind.trans virtual, uid, rfl⟩

theorem reads_of_account {world : World} {id : Uuid} {account : Account}
    (read : world.store.account id = .ok account) : account.id = id ∧ Reads account world := by
  rcases account_ok read with ⟨row, found, viewed⟩
  subst viewed
  exact ⟨rfl, row, found, rfl, rfl⟩

/-! ## Shared parts -/

section Shared

variable {env : Environment} {cfg : AppConfig} {before broken : World -> Prop}

theorem rootOf_rule (target : Account) (steady : Steady before)
    (fails : forall world, Bounded cfg world -> before world -> broken world) :
    Triple (Bounded cfg) before (rootOf env cfg target) (fun _ => before) broken := by
  refine Triple.bindFact (check_rule fails) ?_
  intro _ _
  refine Triple.bind (outside_rule steady fails) ?_
  intro _
  exact (check_rule fails).weaken (fun _ _ holds => holds) (fun _ _ _ both => both.1)
    (fun _ _ given => given)

theorem ownReservation_rule (parent : Account) (used : Nat) (steady : Steady before)
    (fails : forall world, Bounded cfg world -> before world -> broken world) :
    Triple (Bounded cfg) before (ownReservation env cfg parent used)
      (fun held world => before world ∧ (held.isSome = true ↔ parent.kind = .virtual)) broken := by
  unfold ownReservation
  by_cases virtual : parent.kind = .virtual
  · rw [if_pos virtual]
    refine Triple.bind (rootOf_rule parent steady fails) ?_
    intro _
    refine Triple.bind (query_rule steady (fun _ _ _ holds _ => holds) fails) ?_
    intro _
    refine Triple.bind (outside_rule steady fails) ?_
    intro _
    exact Triple.pure (fun _ _ holds => ⟨holds, fun _ => virtual, fun _ => rfl⟩)
  · rw [if_neg virtual]
    refine Triple.pure (fun _ _ holds => ⟨holds, ?_, fun given => absurd given virtual⟩)
    intro impossible
    cases impossible

theorem effectiveLimit_rule (account : Account) (steady : Steady before)
    (reads : forall world, before world -> Reads account world)
    (fails : forall world, Bounded cfg world -> before world -> broken world) :
    Triple (Bounded cfg) before (effectiveLimit env account.id)
      (fun limit world => before world ∧
        (account.kind = .virtual -> Allots account.id account.uid limit world)) broken := by
  refine Triple.via (fun quota world => before world ∧
    (account.kind = .virtual -> Allots account.id account.uid (quota.getD 0) world))
    (query_rule steady ?_ fails) ?_
  · intro world quota sound holds read
    refine ⟨holds, ?_⟩
    intro virtual
    rcases effective_of_reads sound (reads world holds) read virtual with ⟨bytes, given, allots⟩
    rw [given]
    exact allots
  · intro quota
    exact Triple.pure (fun _ _ holds => holds)

/-- A statement that touches no allocation. -/
theorem transact_same_rule {transaction : Store -> Except StoreError (Unit × Store)}
    (steady : Steady before)
    (same : forall store final, transaction store = .ok ((), final) ->
      final.accounts = store.accounts ∧ final.poolLimit = store.poolLimit ∧
        StoreOp.SameTables store final)
    (fails : forall world, Bounded cfg world -> before world -> broken world) :
    Triple (Bounded cfg) before (transact env transaction) (fun _ => before) broken := by
  refine transact_rule steady ?_ fails
  intro world _ final sound holds done
  rcases same world.store final done with ⟨accounts, pool, tables⟩
  have quiet : QuietChange world.store.accounts final.accounts := accounts ▸ .same
  have less : NoMore world.store final := by
    refine ⟨pool, tables.budgets, tables.own, ?_, ?_⟩
    · intro owner
      unfold pendingTotal
      rw [tables.intents]
    · intro owner
      unfold childrenTotal
      rw [accounts]
  refine ⟨sound.quiet (sound.allocated.of_noMore quiet.accountsChange less) quiet tables, ?_⟩
  exact steady world _ (.of_quiet quiet tables) rfl holds

theorem clearSync_rule (id : Uuid) (steady : Steady before)
    (fails : forall world, Bounded cfg world -> before world -> broken world) :
    Triple (Bounded cfg) before (clearSync env id) (fun _ => before) broken := by
  refine transact_same_rule steady ?_ fails
  intro store final done
  cases done
  exact ⟨rfl, rfl, rfl, rfl, rfl, rfl, rfl⟩

/-- A limit that the store promises is applied. -/
theorem raise_rule (id : Uuid) {uid bytes : Nat} (steady : Steady before)
    (promised : forall world, before world -> world.store.Promises id uid bytes)
    (keeps : forall world, before world -> before (world.withNative cfg uid bytes))
    (fails : forall world, before world -> broken world) :
    Triple (Bounded cfg) before (nativeSet env cfg uid bytes) (fun _ => before) broken := by
  refine nativeSet_rule steady ?_ (fun world _ holds _ => keeps world holds)
    (fun world _ holds => ⟨fails world holds, fails _ (keeps world holds)⟩)
  intro world sound holds
  exact sound.mayApply_of_promises (promised world holds)

/-- Restoring a limit on an error path; whether it works does not matter. -/
theorem restore_rule (id : Uuid) {uid bytes : Nat} (condition : Bool) (steady : Steady before)
    (promised : condition = true -> forall world, before world ->
      world.store.Promises id uid bytes)
    (keeps : forall world, before world -> before (world.withNative cfg uid bytes)) :
    Triple (Bounded cfg) before
      (provided condition (do
        let _ ← attempt (nativeSet env cfg uid bytes)
        return ())) (fun _ => before) broken := by
  refine Triple.provided ?_ (fun _ _ _ holds => holds)
  intro taken
  refine Triple.via (fun _ => before) ?_ (fun _ => Triple.pure (fun _ _ holds => holds))
  exact Triple.attempt before (raise_rule id steady (promised taken) keeps (fun _ holds => holds))
    (fun _ _ _ holds => holds)

/-- Lowering a limit before the commit of a smaller allocation. -/
theorem lower_rule (id : Uuid) {uid bytes : Nat} (condition : Bool)
    (promised : condition = true -> forall world, Bounded cfg world -> before world ->
      world.store.Promises id uid bytes)
    (keeps : forall world, before world -> before (world.withNative cfg uid bytes))
    (fails : forall world, before world -> broken world) :
    Triple (Bounded cfg) before (provided condition (nativeSetHeld cfg uid bytes))
      (fun _ world => before world ∧ (condition = true -> Under world.native uid bytes)) broken := by
  refine Triple.provided ?_ ?_
  · intro taken
    refine nativeSetHeld_rule ?_ ?_ ?_
    · intro world sound holds
      exact sound.mayApply_of_promises (promised taken world sound holds)
    · intro world _ holds bounded
      exact ⟨keeps world holds, fun _ => under_withNative bounded⟩
    · intro world _ holds
      exact ⟨fails world holds, fails _ (keeps world holds)⟩
  · intro skipped world _ holds
    refine ⟨holds, ?_⟩
    intro taken
    cases taken.symm.trans skipped

end Shared

/-! ## Budgets and own quotas -/

section Budgets

variable {env : Environment} {cfg : AppConfig}

/-- The administrator of a budget change, as the program knows it. -/
def AdminCase (target : Account) (old : Nat) (world : World) : Prop :=
  Reads target world ∧ (target.kind = .virtual -> Allots target.id target.uid old world)

theorem AdminCase.steady (target : Account) (old : Nat) : Steady (AdminCase target old) :=
  (Reads.steady target).and (Allots.steady target.id target.uid old).imp

theorem AdminCase.withNative {cfg : AppConfig} {target : Account} {old uid bytes : Nat}
    {world : World} (known : AdminCase target old world) :
    AdminCase target old (world.withNative cfg uid bytes) := by
  unfold AdminCase Reads Allots at known ⊢
  rw [World.withNative_store]
  exact known

/-- Whether its limit was lowered or not, it is below the new allocation. -/
theorem AdminCase.covered {world : World} {target : Account} {old bytes : Nat} {held : Option Nat}
    (known : AdminCase target old world) (holding : held.isSome = true ↔ target.kind = .virtual)
    (lowered : (held.isSome && decide (bytes < old)) = true -> Under world.native target.uid bytes)
    (sound : Bounded cfg world) (virtual : target.kind = .virtual)
    (unpurged : world.store.virtualPurged.find target.id = none) :
    Under world.native target.uid bytes := by
  by_cases less : bytes < old
  · exact lowered (by rw [holding.mpr virtual, decide_eq_true less]; rfl)
  · intro limit applied
    have below := (known.2 virtual).under sound unpurged limit applied
    omega

theorem changeBudget_rule (target : Account) (bytes old : Nat) (held : Option Nat)
    (holding : held.isSome = true ↔ target.kind = .virtual) :
    Triple (Bounded cfg) (AdminCase target old) (changeBudget env cfg target bytes old held)
      (fun remaining world => target.kind = .virtual ->
        world.store.Promises target.id target.uid remaining)
      (AdminCase target old) := by
  refine Triple.via (fun remaining world => AdminCase target old world ∧
    world.store.checkBudget .root target.id bytes = .ok remaining)
    (query_rule (AdminCase.steady target old) (fun _ _ _ known checked => ⟨known, checked⟩)
      (fun _ _ known => known)) ?_
  intro remaining
  refine Triple.bindFact (check_rule (fun _ _ both => both.1)) ?_
  intro _ _
  refine Triple.bind (lower_rule target.id _ ?_ ?_ (fun _ both => both.1)) ?_
  · rintro lowered world sound ⟨known, _⟩
    rw [Bool.and_eq_true, decide_eq_true_eq] at lowered
    exact (known.2 (holding.mp lowered.1)).promises_of_le (Nat.le_of_lt lowered.2)
  · rintro world ⟨known, checked⟩
    exact ⟨known.withNative, (World.withNative_store cfg world _ _).symm ▸ checked⟩
  · intro _
    refine Triple.via (fun _ world => target.kind = .virtual ->
      world.store.Promises target.id target.uid remaining) ?_
      (fun _ => Triple.pure (fun _ _ promised => promised))
    refine commit_rule ?_ (fun _ _ both => both.1.1)
    rintro world value final sound ⟨⟨known, checked⟩, lowered⟩ done
    rcases setAdminBudgetWith_ok done with ⟨again, checkedAgain, _, written⟩
    cases checked.symm.trans checkedAgain
    subst written
    rcases known.1 with ⟨row, found, kind, uid⟩
    have committed := sound.setAdminBudget checked found ?_
    · refine ⟨committed.1, ?_⟩
      intro virtual
      exact uid ▸ committed.2 (kind.trans virtual)
    · intro unpurged limit virtual applied
      rw [uid] at applied
      exact known.covered holding lowered sound (kind.symm.trans virtual) unpurged limit applied

/-- What the programs know about an administrator after its transaction. -/
def Changed (target : Account) (old : Nat) : Except StoreError Nat -> World -> Prop
  | .ok remaining => fun world => target.kind = .virtual ->
      world.store.Promises target.id target.uid remaining
  | .error _ => AdminCase target old

theorem applyAdmin_rule {target : Account} {bytes : Nat} (virtual : target.kind = .virtual) :
    Triple (Bounded cfg) (fun world => target.kind = .virtual ->
        world.store.Promises target.id target.uid bytes) (nativeSet env cfg target.uid bytes)
      (fun _ _ => True) (fun _ => True) := by
  refine nativeSet_rule (Promises.steady target.id target.uid bytes).imp ?_
    (fun _ _ _ _ => trivial) (fun _ _ _ => ⟨trivial, trivial⟩)
  intro world sound promised
  exact sound.mayApply_of_promises (promised virtual)

theorem restoreAdmin_rule {Value : Type} {target : Account} {old : Nat} {held : Option Nat}
    {after : Value -> World -> Prop} (holding : held.isSome = true ↔ target.kind = .virtual)
    (problem : StoreError) :
    Triple (Bounded cfg) (AdminCase target old)
      (do
        provided held.isSome (do
          let _ ← attempt (nativeSet env cfg target.uid old)
          return ())
        ofExcept (.error problem) : Provisioning Value) after (fun _ => True) := by
  refine Triple.bind (restore_rule target.id held.isSome (AdminCase.steady target old) ?_
    (fun _ known => known.withNative)) ?_
  · intro taken world known
    exact (known.2 (holding.mp taken)).promises
  · intro _
    exact Triple.ofExcept (fun _ impossible => nomatch impossible) (fun _ _ _ => trivial)

theorem setBudget_rule (id : Uuid) (bytes : Nat) (seen : Surroundings) :
    Triple (Bounded cfg) (fun _ => True) (setBudget env cfg id bytes seen)
      (fun _ _ => True) (fun _ => True) := by
  refine Triple.via (fun target world => Reads target world ∧ target.id = id)
    (query_rule Steady.true_ (fun _ _ _ _ read => (reads_of_account read).symm)
      (fun _ _ _ => trivial)) ?_
  intro target
  refine Triple.given ?_
  intro same
  subst same
  refine Triple.bindFact (check_rule (fun _ _ _ => trivial)) ?_
  intro _ _
  refine Triple.bindFact (ownReservation_rule target seen.parentUsed (Reads.steady target)
    (fun _ _ _ => trivial)) ?_
  intro held holding
  refine Triple.bind (effectiveLimit_rule target (Reads.steady target) (fun _ reads => reads)
    (fun _ _ _ => trivial)) ?_
  intro old
  refine Triple.via (Changed target old) (Triple.attempt (AdminCase target old)
    (changeBudget_rule target bytes old held holding) (fun _ _ _ known => known)) ?_
  intro result
  cases result with
  | error problem => exact restoreAdmin_rule holding problem
  | ok remaining =>
      refine Triple.provided ?_ (fun _ _ _ _ => trivial)
      intro taken
      exact applyAdmin_rule (holding.mp taken)

theorem changeOwn_rule (now : Nat) (target : Account) (bytes old : Nat) (held : Option Nat)
    (holding : held.isSome = true ↔ target.kind = .virtual) :
    Triple (Bounded cfg) (AdminCase target old) (changeOwn env cfg now target bytes old held)
      (fun _ world => target.kind = .virtual ->
        world.store.Promises target.id target.uid bytes)
      (AdminCase target old) := by
  refine Triple.via (fun _ world => AdminCase target old world ∧
    world.store.checkOwn .root target.id bytes = .ok ())
    (query_rule (AdminCase.steady target old) (fun _ _ _ known checked => ⟨known, checked⟩)
      (fun _ _ known => known)) ?_
  intro _
  refine Triple.bindFact (check_rule (fun _ _ both => both.1)) ?_
  intro _ _
  refine Triple.bind (lower_rule target.id _ ?_ ?_ (fun _ both => both.1)) ?_
  · rintro lowered world sound ⟨known, _⟩
    rw [Bool.and_eq_true, decide_eq_true_eq] at lowered
    exact (known.2 (holding.mp lowered.1)).promises_of_le (Nat.le_of_lt lowered.2)
  · rintro world ⟨known, checked⟩
    exact ⟨known.withNative, (World.withNative_store cfg world _ _).symm ▸ checked⟩
  · intro _
    refine commit_rule ?_ (fun _ _ both => both.1.1)
    rintro world value final sound ⟨⟨known, checked⟩, lowered⟩ done
    rcases setAdminOwnWith_ok done with ⟨_, _, written⟩
    rcases checkOwn_ok checked with ⟨_, _, _, ⟨present, presentFound, virtual, _⟩, _⟩
    rcases known.1 with ⟨row, found, kind, uid⟩
    cases found.symm.trans presentFound
    have committed := sound.setAdminOwn checked written found ?_
    · exact ⟨committed.1, fun _ => uid ▸ committed.2⟩
    · rw [uid]
      exact known.covered holding lowered sound (kind.symm.trans virtual)

theorem setOwnQuota_rule (now : Nat) (id : Uuid) (bytes : Nat) (seen : Surroundings) :
    Triple (Bounded cfg) (fun _ => True) (setOwnQuota env cfg now id bytes seen)
      (fun _ _ => True) (fun _ => True) := by
  refine Triple.bindFact (check_rule (fun _ _ _ => trivial)) ?_
  intro _ _
  refine Triple.via (fun target world => Reads target world ∧ target.id = id)
    (query_rule Steady.true_ (fun _ _ _ _ read => (reads_of_account read).symm)
      (fun _ _ _ => trivial)) ?_
  intro target
  refine Triple.given ?_
  intro same
  subst same
  refine Triple.bindFact (check_rule (fun _ _ _ => trivial)) ?_
  intro _ allowed
  refine Triple.bindFact (ownReservation_rule target seen.parentUsed (Reads.steady target)
    (fun _ _ _ => trivial)) ?_
  intro held holding
  refine Triple.via (fun quota world => Reads target world ∧ (target.kind = .virtual ->
    ∃ old, quota = some old ∧ Allots target.id target.uid old world))
    (query_rule (Reads.steady target) ?_ (fun _ _ _ => trivial)) ?_
  · intro world quota sound reads read
    exact ⟨reads, effective_of_reads sound reads read⟩
  intro quota
  refine Triple.via (fun old world => AdminCase target old world)
    (Triple.ofExcept ?_ (fun _ _ _ => trivial)) ?_
  · rintro old given world _ ⟨reads, allots⟩
    refine ⟨reads, ?_⟩
    intro virtual
    rcases allots virtual with ⟨bytes, same, holds⟩
    cases same.symm.trans (Outcome.okOr_eq_ok.mp given)
    exact holds
  intro old
  refine Triple.via (fun result world => Changed target old (result.map (fun _ => bytes)) world)
    (Triple.attempt (AdminCase target old) (changeOwn_rule now target bytes old held holding)
      (fun _ _ _ known => known)) ?_
  intro result
  cases result with
  | error problem => exact restoreAdmin_rule holding problem
  | ok _ =>
      refine Triple.via (fun _ _ => True) (Triple.provided ?_ (fun _ _ _ _ => trivial)) ?_
      · intro taken
        exact applyAdmin_rule (holding.mp taken)
      · intro _
        exact clearSync_rule target.id Steady.true_ (fun _ _ _ => trivial)

end Budgets

/-! ## Quotas of children -/

section Children

variable {env : Environment} {cfg : AppConfig}

/-- The child of a quota change, with the quota the caller saw. -/
def ChildCase (target : Account) (owner : Uuid) (old : Nat) (world : World) : Prop :=
  ∃ row, world.store.accounts.find target.id = some row ∧ row.kind = .virtual ∧
    row.role = .user ∧ row.uid = target.uid ∧ row.ownerAdminId = some owner ∧
    row.quotaBytes.getD 0 = old

theorem ChildCase.steady (target : Account) (owner : Uuid) (old : Nat) :
    Steady (ChildCase target owner old) := by
  rintro world later same _ ⟨row, found, virtual, role, uid, owned, quota⟩
  rcases same.kept _ row found with ⟨new, newFound, continues, sameQuota⟩
  exact ⟨new, newFound, continues.kind.trans virtual, (continues.role virtual).trans role,
    continues.uid.trans uid, continues.owner.trans owned, sameQuota ▸ quota⟩

theorem ChildCase.withNative {target : Account} {owner : Uuid} {old uid bytes : Nat}
    {world : World} (known : ChildCase target owner old world) :
    ChildCase target owner old (world.withNative cfg uid bytes) := by
  unfold ChildCase at known ⊢
  rw [World.withNative_store]
  exact known

theorem ChildCase.allots {target : Account} {owner : Uuid} {old : Nat} {world : World}
    (known : ChildCase target owner old world) : Allots target.id target.uid old world := by
  rcases known with ⟨row, found, virtual, role, uid, _, quota⟩
  exact ⟨row, found, virtual, uid, (limitOf_user role).trans quota⟩

/-- Both accounts of a quota change. -/
def QuotaCase (target owner : Account) (old oldParent : Nat) (world : World) : Prop :=
  ChildCase target owner.id old world ∧ AdminCase owner oldParent world

theorem QuotaCase.steady (target owner : Account) (old oldParent : Nat) :
    Steady (QuotaCase target owner old oldParent) :=
  (ChildCase.steady target owner.id old).and (AdminCase.steady owner oldParent)

theorem QuotaCase.withNative {target owner : Account} {old oldParent uid bytes : Nat}
    {world : World} (known : QuotaCase target owner old oldParent world) :
    QuotaCase target owner old oldParent (world.withNative cfg uid bytes) :=
  ⟨known.1.withNative, known.2.withNative⟩

/-- The parent's allocation moves against the child's. -/
theorem QuotaCase.opposite {target owner : Account} {old oldParent bytes remaining : Nat}
    {world : World} {authority : Authority} {generation : Nat}
    (known : QuotaCase target owner old oldParent world) (sound : Bounded cfg world)
    (checked : world.store.checkChildQuota authority target.id generation bytes = .ok remaining)
    (virtual : owner.kind = .virtual) :
    (old ≤ bytes -> remaining ≤ oldParent) ∧ (bytes ≤ old -> oldParent ≤ remaining) := by
  rcases known.1 with ⟨row, found, _, _, _, owned, quota⟩
  rcases known.2.2 virtual with ⟨ownerRow, ownerFound, ownerVirtual, _, limit⟩
  rcases sound.owners _ row owner.id found owned with ⟨present, presentFound, admin⟩
  cases ownerFound.symm.trans presentFound
  rw [limitOf_admin (admin ownerVirtual)] at limit
  rcases sound.allocated.childQuota checked found owned with ⟨_, _, left⟩
  rw [quota] at left
  cases fixed : world.store.adminOwnQuota.find owner.id with
  | some own =>
      rw [fixed, Option.getD_some] at left limit
      omega
  | none =>
      rw [fixed, Option.getD_none] at left limit
      omega

/-- What is promised after a quota change. -/
def ChildPromised (target owner : Account) (bytes remaining : Nat) (world : World) : Prop :=
  world.store.Promises target.id target.uid bytes ∧
    (owner.kind = .virtual -> world.store.Promises owner.id owner.uid remaining)

theorem ChildPromised.steady (target owner : Account) (bytes remaining : Nat) :
    Steady (ChildPromised target owner bytes remaining) :=
  (Promises.steady target.id target.uid bytes).and
    (Promises.steady owner.id owner.uid remaining).imp

theorem ChildPromised.withNative {target owner : Account} {bytes remaining uid amount : Nat}
    {world : World} (promised : ChildPromised target owner bytes remaining world) :
    ChildPromised target owner bytes remaining (world.withNative cfg uid amount) := by
  unfold ChildPromised at promised ⊢
  rw [World.withNative_store]
  exact promised

/-- What the program knows after the transaction. -/
def QuotaChanged (target owner : Account) (bytes old oldParent : Nat) :
    Except StoreError (Nat × Account) -> World -> Prop
  | .ok result => ChildPromised target owner bytes result.1
  | .error _ => QuotaCase target owner old oldParent

theorem changeQuota_rule (now : Nat) (authority : Authority) (owner target : Account)
    (generation bytes old oldParent : Nat) (parent : Option Nat)
    (holding : parent.isSome = true ↔ owner.kind = .virtual) :
    Triple (Bounded cfg) (QuotaCase target owner old oldParent)
      (changeQuota env cfg now authority owner target generation bytes old parent)
      (fun result => ChildPromised target owner bytes result.1)
      (QuotaCase target owner old oldParent) := by
  refine Triple.via (fun remaining world => QuotaCase target owner old oldParent world ∧
    world.store.checkChildQuota authority target.id generation bytes = .ok remaining)
    (query_rule (QuotaCase.steady target owner old oldParent)
      (fun _ _ _ known checked => ⟨known, checked⟩) (fun _ _ known => known)) ?_
  intro remaining
  refine Triple.bindFact (check_rule (fun _ _ both => both.1)) ?_
  intro _ _
  have keeps : forall uid amount world, QuotaCase target owner old oldParent world ∧
      world.store.checkChildQuota authority target.id generation bytes = .ok remaining ->
      QuotaCase target owner old oldParent (world.withNative cfg uid amount) ∧
      (world.withNative cfg uid amount).store.checkChildQuota authority target.id generation bytes =
        .ok remaining := by
    rintro uid amount world ⟨known, checked⟩
    exact ⟨known.withNative, (World.withNative_store cfg world uid amount).symm ▸ checked⟩
  refine Triple.bind (lower_rule owner.id _ ?_ (keeps _ _) (fun _ both => both.1)) ?_
  · rintro raised world sound ⟨known, checked⟩
    rw [Bool.and_eq_true, decide_eq_true_eq] at raised
    have virtual := holding.mp raised.1
    exact (known.2.2 virtual).promises_of_le
      ((known.opposite sound checked virtual).1 (Nat.le_of_lt raised.2))
  intro _
  refine Triple.via (fun _ world => (QuotaCase target owner old oldParent world ∧
      world.store.checkChildQuota authority target.id generation bytes = .ok remaining) ∧
    (owner.kind = .virtual -> old < bytes -> Under world.native owner.uid remaining) ∧
    (bytes < old -> Under world.native target.uid bytes)) ?_ ?_
  · -- A quota that grows lowers the parent only, one that shrinks the child only.
    by_cases shrinks : bytes < old
    · refine (lower_rule target.id _ ?_ (keeps _ _) (fun _ both => both.1)).weaken
        (fun _ _ holds => holds.1) ?_ (fun _ _ known => known)
      · rintro _ world _ ⟨known, _⟩
        exact known.1.allots.promises_of_le (Nat.le_of_lt shrinks)
      · rintro _ world _ ⟨both, lowered⟩
        exact ⟨both, fun _ grows => absurd grows (by omega), fun _ => lowered (decide_eq_true shrinks)⟩
    · refine Triple.provided (fun taken => absurd (of_decide_eq_true taken) shrinks) ?_
      rintro _ world _ ⟨both, lowered⟩
      refine ⟨both, ?_, fun less => absurd less shrinks⟩
      intro virtual grows
      exact lowered (by rw [holding.mpr virtual, decide_eq_true grows]; rfl)
  intro _
  refine Triple.via (fun _ world => ChildPromised target owner bytes remaining world) ?_
    (fun _ => Triple.pure (fun _ _ promised => promised))
  refine commit_rule ?_ (fun _ _ both => both.1.1)
  rintro world value final sound ⟨⟨known, checked⟩, parentLowered, targetLowered⟩ done
  rcases setChildQuotaWith_ok done with ⟨again, checkedAgain, _, written⟩
  cases checked.symm.trans checkedAgain
  rcases known.1 with ⟨row, found, virtual, role, uid, owned, quota⟩
  rcases known.2.1 with ⟨ownerRow, ownerFound, ownerKind, ownerUid⟩
  have committed := sound.setChildQuota checked written found owned ?_ ?_
  · refine ⟨committed.1, uid ▸ committed.2.1, ?_⟩
    intro ownerVirtual
    exact ownerUid ▸ committed.2.2 ownerRow ownerFound (ownerKind.trans ownerVirtual)
  · intro unpurged limit applied
    rw [uid] at applied
    by_cases shrinks : bytes < old
    · exact targetLowered shrinks limit applied
    · have below := known.1.allots.under sound unpurged limit applied
      omega
  · intro present limit presentFound presentVirtual unpurged applied
    cases ownerFound.symm.trans presentFound
    have ownerVirtual := ownerKind.symm.trans presentVirtual
    rw [ownerUid] at applied
    by_cases grows : old < bytes
    · exact parentLowered ownerVirtual grows limit applied
    · have below := (known.2.2 ownerVirtual).under sound unpurged limit applied
      have above := (known.opposite sound checked ownerVirtual).2 (by omega)
      omega

/-- The caller's snapshot of a child is up to date. -/
def Current (target : Account) (world : World) : Prop :=
  forall row, world.store.accounts.find target.id = some row ->
    row.quotaBytes = target.quotaBytes

theorem setQuota_rule (now : Nat) (authority : Authority) (target : Account)
    (generation bytes : Nat) (seen : Surroundings) :
    Triple (Bounded cfg) (fun world => target ∈ world.taken ∧ Current target world)
      (setQuota env cfg now authority target generation bytes seen)
      (fun _ _ => True) (fun _ => True) := by
  refine Triple.bindFact (check_rule (fun _ _ _ => trivial)) ?_
  intro _ _
  refine Triple.bindFact (check_rule (fun _ _ _ => trivial)) ?_
  intro _ allowed
  rw [Outcome.refuse_eq_ok, Bool.or_eq_false_iff, bne_eq_false_iff_eq, bne_eq_false_iff_eq] at allowed
  refine Triple.bindFact (check_rule (fun _ _ _ => trivial)) ?_
  intro ownerId owned
  rw [Outcome.okOr_eq_ok] at owned
  have child : forall world, Bounded cfg world -> target ∈ world.taken ∧ Current target world ->
      ChildCase target ownerId (target.quotaBytes.getD 0) world := by
    rintro world sound ⟨member, current⟩
    rcases sound.taken target member with ⟨row, found, read⟩
    have virtual := read.kind.trans allowed.1
    exact ⟨row, found, virtual, (read.role virtual).trans allowed.2, read.uid,
      read.owner.trans owned, by rw [current row found]⟩
  refine Triple.starting child ?_
  refine Triple.via (fun owner world => (ChildCase target ownerId (target.quotaBytes.getD 0) world ∧
    Reads owner world) ∧ owner.id = ownerId)
    (query_rule (ChildCase.steady target ownerId _) ?_ (fun _ _ _ => trivial)) ?_
  · intro world owner _ known read
    exact ⟨⟨known, (reads_of_account read).2⟩, (reads_of_account read).1⟩
  intro owner
  refine Triple.given ?_
  intro same
  subst same
  have steady := (ChildCase.steady target owner.id (target.quotaBytes.getD 0)).and
    (Reads.steady owner)
  refine Triple.bindFact (ownReservation_rule owner seen.parentUsed steady (fun _ _ _ => trivial)) ?_
  intro parent holding
  refine Triple.bind (rootOf_rule target steady (fun _ _ _ => trivial)) ?_
  intro _
  refine Triple.bind (outside_rule steady (fun _ _ _ => trivial)) ?_
  intro _
  refine Triple.bindFact (check_rule (fun _ _ _ => trivial)) ?_
  intro _ _
  refine Triple.bind (effectiveLimit_rule owner steady (fun _ both => both.2)
    (fun _ _ _ => trivial)) ?_
  intro oldParent
  refine Triple.starting (fun _ _ holds => (⟨holds.1.1, holds.1.2, holds.2⟩ :
    QuotaCase target owner (target.quotaBytes.getD 0) oldParent _)) ?_
  have quotaSteady := QuotaCase.steady target owner (target.quotaBytes.getD 0) oldParent
  refine Triple.via (fun _ => QuotaCase target owner (target.quotaBytes.getD 0) oldParent)
    (query_rule quotaSteady (fun _ _ _ holds _ => holds) (fun _ _ _ => trivial)) ?_
  intro fixed
  refine Triple.bindFact (check_rule (fun _ _ _ => trivial)) ?_
  intro newParent _
  refine Triple.bindFact (check_rule (fun _ _ _ => trivial)) ?_
  intro _ _
  refine Triple.via (QuotaChanged target owner bytes (target.quotaBytes.getD 0) oldParent)
    (Triple.attempt (QuotaCase target owner (target.quotaBytes.getD 0) oldParent)
      (changeQuota_rule now authority owner target generation bytes _ oldParent parent holding)
      (fun _ _ _ known => known)) ?_
  intro result
  cases result with
  | error problem =>
      refine Triple.bind (restore_rule target.id _ quotaSteady
        (fun _ _ known => known.1.allots.promises) (fun _ known => known.withNative)) ?_
      intro _
      refine Triple.bind (restore_rule owner.id _ quotaSteady ?_
        (fun _ known => known.withNative)) ?_
      · intro taken _ known
        rw [Bool.and_eq_true] at taken
        exact (known.2.2 (holding.mp taken.2)).promises
      intro _
      exact Triple.ofExcept (fun _ _ _ _ _ => trivial) (fun _ _ _ => trivial)
  | ok pair =>
      rcases pair with ⟨remaining, updated⟩
      have promisedSteady := ChildPromised.steady target owner bytes remaining
      refine Triple.bind (raise_rule target.id promisedSteady (fun _ promised => promised.1)
        (fun _ promised => promised.withNative) (fun _ _ => trivial)) ?_
      intro _
      refine Triple.via (fun _ _ => True) (Triple.provided ?_ (fun _ _ _ _ => trivial)) ?_
      · intro taken
        exact (raise_rule owner.id promisedSteady
          (fun _ promised => promised.2 (holding.mp taken))
          (fun _ promised => promised.withNative) (fun _ _ => trivial)).weaken
            (fun _ _ promised => promised) (fun _ _ _ _ => trivial) (fun _ _ _ => trivial)
      · intro _
        refine Triple.bind (clearSync_rule target.id Steady.true_ (fun _ _ _ => trivial)) ?_
        intro _
        exact Triple.pure (fun _ _ _ => trivial)

end Children

end TealDrive
