import TealDrive.Accounts.NativeRuns

namespace TealDrive

open Faults (Triple Stable attempt provided ofExcept)
open Store

/-!
# Accounts come and go under the lock

The programs that create an account reserve a uid and a quota in an intent
first.  Until the account exists the kernel's limit of the uid is covered by
the intent; when the account is inserted it is covered by the new row.  A
cancelled intent and a purged account only give allocations back.
-/

/-! ## Free uids -/

theorem unknown_of_free {store : Store} {uid : Nat} (free : store.uidTaken uid = false) :
    ¬ store.Known uid := by
  unfold uidTaken at free
  rw [Bool.or_eq_false_iff, Bool.or_eq_false_iff] at free
  rintro (⟨id, row, found, _, same⟩ | ⟨key, intent, found, same⟩ | gone)
  · have taken : store.accounts.exists_ (fun _ row => row.uid == uid) = true :=
      Table.exists_of_find found (beq_iff_eq.mpr same)
    cases taken.symm.trans free.1.1
  · have taken : store.virtualCreate.exists_ (fun _ intent => intent.uid == uid) = true :=
      Table.exists_of_find found (beq_iff_eq.mpr same)
    cases taken.symm.trans free.2
  · cases gone.symm.trans free.1.2

/-- Nobody takes a uid but the holder of the lock. -/
theorem Unknown.steady (uid : Nat) : Steady (fun world => ¬ world.store.Known uid) := by
  rintro world later same _ free (⟨id, new, found, virtual, sameUid⟩ | intent | gone)
  · rcases same.origin id new found virtual with ⟨row, present⟩
    rcases same.kept id row present with ⟨kept, keptFound, continues, _⟩
    cases keptFound.symm.trans found
    exact free (Or.inl ⟨id, row, present, continues.kind.symm.trans virtual,
      continues.uid.symm.trans sameUid⟩)
  · rw [same.tables.intents] at intent
    exact free (Or.inr (Or.inl intent))
  · rw [same.tables.retired] at gone
    exact free (Or.inr (Or.inr gone))

section Creating

variable {env : Environment} {cfg : AppConfig} {before broken : World -> Prop}

theorem firstFree_rule (seen : Surroundings) (uids : List Nat) (steady : Steady before)
    (fails : forall world, Bounded cfg world -> before world -> broken world) :
    Triple (Bounded cfg) before (firstFree env cfg seen uids)
      (fun uid world => before world ∧ ¬ world.store.Known uid) broken := by
  induction uids with
  | nil => exact Triple.ofExcept (fun _ impossible => nomatch impossible) fails
  | cons uid rest ih =>
      refine Triple.via (fun taken world => before world ∧
        (taken = false -> ¬ world.store.Known uid)) (query_rule steady ?_ fails) ?_
      · intro world taken _ holds read
        refine ⟨holds, ?_⟩
        intro free
        cases read
        exact unknown_of_free free
      intro taken
      have both := steady.and ((Unknown.steady uid).imp : Steady (fun world => taken = false -> ¬ world.store.Known uid))
      refine Triple.bind (outside_rule both (fun world sound holds => fails world sound holds.1)) ?_
      intro _
      split
      · rename_i chosen
        rw [Bool.and_eq_true, Bool.and_eq_true, Bool.not_eq_true'] at chosen
        refine Triple.bind (transact_same_rule both ?_
          (fun world sound holds => fails world sound holds.1)) ?_
        · intro store final done
          cases done
          exact ⟨rfl, rfl, rfl, rfl, rfl, rfl, rfl⟩
        intro _
        exact Triple.pure (fun _ _ holds => ⟨holds.1, holds.2 chosen.1.1⟩)
      · exact ih.weaken (fun _ _ holds => holds.1) (fun _ _ _ done => done) (fun _ _ done => done)

theorem allocate_rule (seen : Surroundings) (steady : Steady before)
    (fails : forall world, Bounded cfg world -> before world -> broken world) :
    Triple (Bounded cfg) before (allocate env cfg seen)
      (fun uid world => before world ∧ ¬ world.store.Known uid) broken := by
  refine Triple.via (fun _ => before) (query_rule steady (fun _ _ _ holds _ => holds) fails) ?_
  intro cursor
  refine Triple.bind (outside_rule steady fails) ?_
  intro _
  refine Triple.bindFact (check_rule fails) ?_
  intro _ _
  exact firstFree_rule seen _ steady fails

theorem checkNewName_rule (name : Text) (taken : Bool) (steady : Steady before)
    (fails : forall world, Bounded cfg world -> before world -> broken world) :
    Triple (Bounded cfg) before (checkNewName env cfg name taken) (fun _ => before) broken := by
  refine Triple.via (fun _ => before) (query_rule steady (fun _ _ _ holds _ => holds) fails) ?_
  intro _
  refine Triple.bind (outside_rule steady fails) ?_
  intro _
  refine Triple.bindFact (check_rule fails) ?_
  intro _ _
  refine Triple.via (fun _ => before) (query_rule steady (fun _ _ _ holds _ => holds) fails) ?_
  intro _
  refine Triple.bindFact (check_rule fails) ?_
  intro _ _
  refine Triple.via (fun _ => before) (query_rule steady (fun _ _ _ holds _ => holds) fails) ?_
  intro _
  exact (check_rule fails).weaken (fun _ _ holds => holds) (fun _ _ _ holds => holds.1)
    (fun _ _ given => given)

/-! ## Intents -/

/-- The intent of the request is pending. -/
def Saved (key : IntentKey) (intent : Intent) (world : World) : Prop :=
  world.store.virtualCreate.find key = some intent

theorem Saved.steady (key : IntentKey) (intent : Intent) : Steady (Saved key intent) := by
  intro world later same _ saved
  unfold Saved
  rw [same.tables.intents]
  exact saved

theorem ensureOsIdentity_rule {key : IntentKey} {intent : Intent}
    (pending : intent.accountId = none) :
    Triple (Bounded cfg) (Saved key intent) (ensureOsIdentity env cfg intent.uid intent.quota)
      (fun _ => Saved key intent) (fun _ => True) := by
  have steady := Saved.steady key intent
  refine Triple.bind (outside_rule steady (fun _ _ _ => trivial)) ?_
  intro _
  refine Triple.bindFact (check_rule (fun _ _ _ => trivial)) ?_
  intro _ _
  refine Triple.via (fun _ => Saved key intent) (nativeSet_rule steady ?_ ?_
    (fun _ _ _ => ⟨trivial, trivial⟩)) ?_
  · intro world sound saved
    exact sound.mayApply_of_intent saved pending (Nat.le_refl _)
  · intro world _ saved _
    unfold Saved
    rw [World.withNative_store]
    exact saved
  intro _
  refine Triple.bind (outside_rule steady (fun _ _ _ => trivial)) ?_
  intro _
  exact Triple.pure (fun _ _ saved => saved)

/-- The end of a creation: the intent becomes the account it reserved for. -/
theorem complete_rule {id : Uuid} {now : Nat} {authority : Authority} {new : NewAccount}
    {hash : Option Text} {key : IntentKey} {intent : Intent} (pending : intent.accountId = none)
    (virtual : new.kind = .virtual) (uid : new.uid = intent.uid)
    (drawn : (new.role = .user ∧ ∃ owner, new.ownerAdminId = some owner ∧
        intent.owner = .account owner ∧ new.quotaBytes = some intent.quota) ∨
      new.role = .admin ∧ new.ownerAdminId = none) :
    Triple (Bounded cfg) (Saved key intent)
      (transact env (Store.createRecord id now authority new hash (some (key, intent))))
      (fun _ _ => True) (fun _ => True) := by
  refine transact_rule (Saved.steady key intent) ?_ (fun _ _ _ => trivial)
  intro world account final sound saved done
  rcases createRecord_ok done with ⟨budget, required, created, written⟩
  refine ⟨sound.create created written saved pending uid ?_, trivial⟩
  rcases drawn with user | ⟨admin, unowned⟩
  · exact Or.inl user
  · exact Or.inr ⟨admin, unowned, rootBudget_of_admin virtual admin created.drawn⟩

theorem completeChild_rule (id : Uuid) (now : Nat) (actor : Account) (name : Text) (hash : Text)
    (request : Uuid) {intent : Intent} (pending : intent.accountId = none)
    (owned : intent.owner = .account actor.id) :
    Triple (Bounded cfg) (Saved ⟨.account actor.id, request⟩ intent)
      (completeChild env cfg id now actor name intent.quota hash request intent)
      (fun _ _ => True) (fun _ => True) := by
  refine Triple.bind (ensureOsIdentity_rule pending) ?_
  intro home
  refine Triple.bind (outside_rule (Saved.steady _ intent) (fun _ _ _ => trivial)) ?_
  intro _
  exact complete_rule pending rfl rfl (Or.inl ⟨rfl, actor.id, rfl, owned, rfl⟩)

theorem completeAdmin_rule (id : Uuid) (now : Nat) (name : Text) (hash : Text) (request : Uuid)
    {intent : Intent} (pending : intent.accountId = none) :
    Triple (Bounded cfg) (Saved ⟨.root, request⟩ intent)
      (completeAdmin env cfg id now name intent.quota hash request intent)
      (fun _ _ => True) (fun _ => True) := by
  refine Triple.bind (ensureOsIdentity_rule pending) ?_
  intro home
  refine Triple.bind (outside_rule (Saved.steady _ intent) (fun _ _ _ => trivial)) ?_
  intro _
  exact complete_rule pending rfl rfl (Or.inr ⟨rfl, rfl⟩)

/-! ## Children -/

/-- The kernel's limit of a parent leaves room for one more child. -/
def Lowered (actor : Account) (oldLimit quota : Nat) (world : World) : Prop :=
  actor.kind = .virtual -> Under world.native actor.uid
    (if (world.store.adminOwnQuota.find actor.id).isSome = true then oldLimit
      else oldLimit - quota)

theorem Lowered.steady (actor : Account) (oldLimit quota : Nat) :
    Steady (Lowered actor oldLimit quota) := by
  intro world later same native lowered
  unfold Lowered
  rw [same.tables.own, native]
  exact lowered

/-- What `provision` knows when it has chosen a uid. -/
def Chosen (actor : Account) (oldLimit uid : Nat) (world : World) : Prop :=
  AdminCase actor oldLimit world ∧ ¬ world.store.Known uid

theorem Chosen.steady (actor : Account) (oldLimit uid : Nat) :
    Steady (Chosen actor oldLimit uid) :=
  (AdminCase.steady actor oldLimit).and (Unknown.steady uid)

theorem Chosen.withNative {actor : Account} {oldLimit uid other bytes : Nat} {world : World}
    (chosen : Chosen actor oldLimit uid world) :
    Chosen actor oldLimit uid (world.withNative cfg other bytes) :=
  ⟨chosen.1.withNative, by rw [World.withNative_store]; exact chosen.2⟩

theorem lowerParent_rule (actor : Account) (quota oldLimit uid : Nat) (parent : Option Nat)
    (holding : parent.isSome = true ↔ actor.kind = .virtual) :
    Triple (Bounded cfg) (Chosen actor oldLimit uid)
      (lowerParent env cfg actor quota oldLimit parent)
      (fun _ world => Chosen actor oldLimit uid world ∧ Lowered actor oldLimit quota world)
      (fun _ => True) := by
  cases parent with
  | none =>
      refine Triple.pure (fun _ _ chosen => ⟨chosen, ?_⟩)
      intro virtual
      cases holding.mpr virtual
  | some used =>
      have virtual := holding.mp rfl
      have ownSteady : forall fixed : Bool, Steady (fun world =>
          fixed = (world.store.adminOwnQuota.find actor.id).isSome) := by
        intro fixed world later same _ equal
        rw [same.tables.own]
        exact equal
      refine Triple.via (fun fixed world => Chosen actor oldLimit uid world ∧
        fixed.isSome = (world.store.adminOwnQuota.find actor.id).isSome)
        (query_rule (Chosen.steady actor oldLimit uid) ?_ (fun _ _ _ => trivial)) ?_
      · intro world fixed _ chosen read
        refine ⟨chosen, ?_⟩
        rw [fixedOwn_ok read]
        cases world.store.adminOwnQuota.find actor.id with
        | none => rfl
        | some own => rfl
      intro fixed
      refine Triple.bindFact (check_rule (fun _ _ _ => trivial)) ?_
      intro _ _
      refine Triple.bindFact (check_rule (fun _ _ _ => trivial)) ?_
      intro _ _
      refine nativeSet_rule ((Chosen.steady actor oldLimit uid).and (ownSteady fixed.isSome)) ?_ ?_
        (fun _ _ _ => ⟨trivial, trivial⟩)
      · rintro world sound ⟨chosen, _⟩
        refine sound.mayApply_of_promises ((chosen.1.2 virtual).promises_of_le ?_)
        split <;> omega
      · rintro world _ ⟨chosen, equal⟩ bounded
        refine ⟨chosen.withNative, ?_⟩
        intro _
        rw [World.withNative_store, ← equal]
        exact under_withNative bounded

theorem limitOf_recordIntent {store : Store} {key : IntentKey} {intent : Intent}
    (absent : store.virtualCreate.find key = none) {id : Uuid} {row : AccountRow}
    (role : row.role = .admin) :
    ({ store with virtualCreate := store.virtualCreate.insert key intent }).limitOf id row =
      (store.adminOwnQuota.find id).getD (store.budgetOf id - (store.childrenTotal id +
        (store.pendingTotal (.account id) none + intentWeight (.account id) intent))) := by
  rw [limitOf_admin role, pendingTotal_insert absent]
  rfl

/-- The parent's limit fits the allocation that is left after the intent. -/
theorem Lowered.within {actor : Account} {oldLimit quota uid : Nat} {world : World}
    {key : IntentKey} {intent : Intent} (sound : Bounded cfg world)
    (chosen : Chosen actor oldLimit uid world) (lowered : Lowered actor oldLimit quota world)
    (absent : world.store.virtualCreate.find key = none)
    (owned : intent.owner = .account actor.id) (reserved : intent.quota = quota)
    (admin : forall row, world.store.accounts.find actor.id = some row -> row.role = .admin)
    (id : Uuid) (row : AccountRow) (limit : Nat) (found : world.store.accounts.find id = some row)
    (virtual : row.kind = .virtual) (unpurged : world.store.virtualPurged.find id = none)
    (applied : world.native row.uid = some limit) :
    limit ≤ ({ world.store with
      virtualCreate := world.store.virtualCreate.insert key intent }).limitOf id row := by
  by_cases here : id = actor.id
  · subst here
    rcases chosen.1.1 with ⟨present, presentFound, kind, sameUid⟩
    cases found.symm.trans presentFound
    have virtualActor : actor.kind = .virtual := kind.symm.trans virtual
    rcases chosen.1.2 virtualActor with ⟨again, againFound, _, _, old⟩
    cases found.symm.trans againFound
    have below := lowered virtualActor limit (sameUid ▸ applied)
    have counted : intentWeight (.account actor.id) intent ≤ quota := by
      unfold intentWeight
      split <;> omega
    rw [limitOf_admin (admin row found)] at old
    rw [limitOf_recordIntent absent (admin row found)]
    cases fixed : world.store.adminOwnQuota.find actor.id with
    | some own =>
        rw [fixed, Option.isSome_some, if_pos rfl] at below
        rw [fixed, Option.getD_some] at old
        rw [Option.getD_some]
        omega
    | none =>
        rw [fixed, Option.isSome_none, if_neg Bool.false_ne_true] at below
        rw [fixed, Option.getD_none] at old
        rw [Option.getD_none]
        omega
  · refine sound.covered_of_le found (.refl row) virtual unpurged ?_ applied
    refine limitOf_mono rfl rfl rfl rfl ?_
    have other : intentWeight (.account id) intent = 0 := by
      refine if_neg ?_
      rintro ⟨same, _⟩
      rw [owned] at same
      cases same
      exact here rfl
    rw [pendingTotal_insert absent, other]
    exact Nat.le_refl _

theorem recordChildIntent_rule (actor : Account) (name : Text) (quota oldLimit uid : Nat)
    (request : Uuid) :
    Triple (Bounded cfg)
      (fun world => Chosen actor oldLimit uid world ∧ Lowered actor oldLimit quota world)
      (transact env (Store.recordChildIntent actor.id actor.generation request name quota uid))
      (fun _ => Saved ⟨.account actor.id, request⟩ ⟨1, .account actor.id, name, quota, uid, none⟩)
      (AdminCase actor oldLimit) := by
  refine transact_rule ((Chosen.steady actor oldLimit uid).and
    (Lowered.steady actor oldLimit quota)) ?_ (fun _ _ both => both.1.1)
  rintro world value final sound ⟨chosen, lowered⟩ done
  rcases recordChildIntent_ok done with ⟨⟨row, caller, admin⟩, fits, absent, written⟩
  subst written
  refine ⟨sound.recordIntent (sound.allocated.recordIntent absent fits) absent chosen.2 ?_,
    Table.find_insert_self _ _ _⟩
  refine lowered.within sound chosen absent rfl rfl ?_
  intro present presentFound
  cases caller.found.symm.trans presentFound
  exact admin

/-- What `provision` knows after the transaction of the intent. -/
def Reserved (actor : Account) (oldLimit : Nat) (request : Uuid) (intent : Intent) :
    Except StoreError Unit -> World -> Prop
  | .ok _ => Saved ⟨.account actor.id, request⟩ intent
  | .error _ => AdminCase actor oldLimit

theorem reserveChild_rule (actor : Account) (name : Text) (quota : Nat) (request : Uuid)
    (seen : Surroundings) (parent : Option Nat)
    (holding : parent.isSome = true ↔ actor.kind = .virtual) :
    Triple (Bounded cfg) (Reads actor)
      (reserveChild env cfg actor name quota request seen parent)
      (fun intent world => Saved ⟨.account actor.id, request⟩ intent world ∧
        (intent.accountId = none ∧ intent.owner = .account actor.id ∧ intent.quota = quota))
      (fun _ => True) := by
  have steady := Reads.steady actor
  refine Triple.bind (checkNewName_rule name seen.nameExists steady (fun _ _ _ => trivial)) ?_
  intro _
  refine Triple.via (fun _ => Reads actor)
    (query_rule steady (fun _ _ _ reads _ => reads) (fun _ _ _ => trivial)) ?_
  intro budget
  refine Triple.bindFact (check_rule (fun _ _ _ => trivial)) ?_
  intro _ _
  refine Triple.bind (allocate_rule seen steady (fun _ _ _ => trivial)) ?_
  intro uid
  refine Triple.bind (effectiveLimit_rule actor (steady.and (Unknown.steady uid))
    (fun _ both => both.1) (fun _ _ _ => trivial)) ?_
  intro oldLimit
  refine Triple.starting (fun _ _ holds => (⟨⟨holds.1.1, holds.2⟩, holds.1.2⟩ :
    Chosen actor oldLimit uid _)) ?_
  refine Triple.bind (lowerParent_rule actor quota oldLimit uid parent holding) ?_
  intro _
  refine Triple.via (Reserved actor oldLimit request ⟨1, .account actor.id, name, quota, uid, none⟩)
    (Triple.attempt (AdminCase actor oldLimit)
      (recordChildIntent_rule actor name quota oldLimit uid request) (fun _ _ _ known => known)) ?_
  intro result
  cases result with
  | ok _ => exact Triple.pure (fun _ _ saved => ⟨saved, rfl, rfl, rfl⟩)
  | error problem => exact restoreAdmin_rule holding problem

theorem resumeChild_rule (actor : Account) (parent : Option Nat) {key : IntentKey}
    {intent : Intent} (holding : parent.isSome = true ↔ actor.kind = .virtual) :
    Triple (Bounded cfg) (fun world => Saved key intent world ∧ Reads actor world)
      (resumeChild env cfg actor parent) (fun _ => Saved key intent) (fun _ => True) := by
  cases parent with
  | none => exact Triple.pure (fun _ _ both => both.1)
  | some used =>
      have virtual := holding.mp rfl
      have steady := (Saved.steady key intent).and (Reads.steady actor)
      refine Triple.bind (effectiveLimit_rule actor steady (fun _ both => both.2)
        (fun _ _ _ => trivial)) ?_
      intro remaining
      refine Triple.bindFact (check_rule (fun _ _ _ => trivial)) ?_
      intro _ _
      refine nativeSet_rule (steady.and (Allots.steady actor.id actor.uid remaining).imp) ?_ ?_
        (fun _ _ _ => ⟨trivial, trivial⟩)
      · rintro world sound ⟨_, allots⟩
        exact sound.mayApply_of_promises (allots virtual).promises
      · rintro world _ ⟨⟨saved, _⟩, _⟩ _
        unfold Saved
        rw [World.withNative_store]
        exact saved

theorem createdChild_rule (actor : Account) (id : Uuid) (steady : Steady before)
    (fails : forall world, Bounded cfg world -> before world -> broken world) :
    Triple (Bounded cfg) before (createdChild env actor id) (fun _ _ => True) broken := by
  refine Triple.via (fun _ => before) (query_rule steady (fun _ _ _ holds _ => holds) fails) ?_
  intro target
  refine Triple.bindFact (check_rule fails) ?_
  intro _ _
  exact Triple.pure (fun _ _ _ => trivial)

theorem provision_rule (id : Uuid) (now : Nat) (actor : Account) (name : Text) (quota : Nat)
    (hash : Text) (request : Uuid) (seen : Surroundings) :
    Triple (Bounded cfg) (fun world => actor ∈ world.taken)
      (provision env cfg id now actor name quota hash request seen)
      (fun _ _ => True) (fun _ => True) := by
  have reads : forall world, Bounded cfg world -> actor ∈ world.taken -> Reads actor world := by
    intro world sound member
    rcases sound.taken actor member with ⟨row, found, read⟩
    exact ⟨row, found, read.kind, read.uid⟩
  refine Triple.starting reads ?_
  have steady := Reads.steady actor
  refine Triple.bindFact (check_rule (fun _ _ _ => trivial)) ?_
  intro _ _
  refine Triple.bindFact (check_rule (fun _ _ _ => trivial)) ?_
  intro _ _
  refine Triple.bind (outside_rule steady (fun _ _ _ => trivial)) ?_
  intro _
  refine Triple.via (fun saved world => Reads actor world ∧
    (forall intent, saved = some intent -> Saved ⟨.account actor.id, request⟩ intent world))
    (query_rule steady ?_ (fun _ _ _ => trivial)) ?_
  · intro world saved _ holds read
    cases read
    exact ⟨holds, fun _ found => found⟩
  intro saved
  cases saved with
  | none =>
      refine Triple.starting (fun _ _ both => both.1) ?_
      refine Triple.bindFact (ownReservation_rule actor seen.parentUsed steady
        (fun _ _ _ => trivial)) ?_
      intro parent holding
      refine Triple.bind (reserveChild_rule actor name quota request seen parent holding) ?_
      intro intent
      refine Triple.given ?_
      rintro ⟨pending, owned, same⟩
      subst same
      exact completeChild_rule id now actor name hash request pending owned
  | some intent =>
      refine Triple.starting (fun _ _ both => (⟨both.2 intent rfl, both.1⟩ :
        Saved ⟨.account actor.id, request⟩ intent _ ∧ Reads actor _)) ?_
      have both := (Saved.steady ⟨.account actor.id, request⟩ intent).and steady
      refine Triple.bindFact (check_rule (fun _ _ _ => trivial)) ?_
      intro _ matching
      simp only [Outcome.refuse_eq_ok, Bool.or_eq_false_iff, bne_eq_false_iff_eq] at matching
      rcases matching with ⟨⟨⟨_, owned⟩, _⟩, same⟩
      subst same
      cases completed : intent.accountId with
      | some created => exact createdChild_rule actor created both (fun _ _ _ => trivial)
      | none =>
          refine Triple.bindFact (ownReservation_rule actor seen.parentUsed both
            (fun _ _ _ => trivial)) ?_
          intro parent holding
          refine Triple.bind (resumeChild_rule actor parent holding) ?_
          intro _
          exact completeChild_rule id now actor name hash request completed owned

/-! ## Administrators -/

theorem reserveAdmin_rule (name : Text) (budget : Nat) (request : Uuid) (seen : Surroundings) :
    Triple (Bounded cfg) (fun _ => True) (reserveAdmin env cfg name budget request seen)
      (fun intent world => Saved ⟨.root, request⟩ intent world ∧
        (intent.accountId = none ∧ intent.quota = budget)) (fun _ => True) := by
  refine Triple.bind (checkNewName_rule name _ Steady.true_ (fun _ _ _ => trivial)) ?_
  intro _
  refine Triple.bind (allocate_rule seen Steady.true_ (fun _ _ _ => trivial)) ?_
  intro uid
  refine Triple.via (fun _ => Saved ⟨.root, request⟩ ⟨1, .root, name, budget, uid, none⟩)
    (transact_rule (Steady.true_.and (Unknown.steady uid)) ?_ (fun _ _ _ => trivial)) ?_
  · rintro world value final sound ⟨_, free⟩ done
    rcases recordAdminIntent_ok done with ⟨fits, absent, written⟩
    subst written
    refine ⟨sound.recordIntent (sound.allocated.recordIntent absent fits) absent free ?_,
      Table.find_insert_self _ _ _⟩
    intro id row limit found virtual unpurged applied
    -- An intent of root draws on the pool, so no account's allocation moves.
    refine sound.covered_of_le found (.refl row) virtual unpurged ?_ applied
    refine limitOf_mono rfl rfl rfl rfl ?_
    rw [pendingTotal_insert absent]
    exact Nat.le_refl _
  · intro _
    exact Triple.pure (fun _ _ saved => ⟨saved, rfl, rfl⟩)

theorem createdAdmin_rule (id : Uuid) (steady : Steady before)
    (fails : forall world, Bounded cfg world -> before world -> broken world) :
    Triple (Bounded cfg) before (createdAdmin env id) (fun _ _ => True) broken := by
  refine Triple.via (fun _ => before) (query_rule steady (fun _ _ _ holds _ => holds) fails) ?_
  intro target
  refine Triple.bindFact (check_rule fails) ?_
  intro _ _
  exact Triple.pure (fun _ _ _ => trivial)

theorem createAdmin_rule (id : Uuid) (now : Nat) (name : Text) (budget : Nat) (hash : Text)
    (request : Uuid) (seen : Surroundings) :
    Triple (Bounded cfg) (fun _ => True) (createAdmin env cfg id now name budget hash request seen)
      (fun _ _ => True) (fun _ => True) := by
  refine Triple.bindFact (check_rule (fun _ _ _ => trivial)) ?_
  intro _ _
  refine Triple.bindFact (check_rule (fun _ _ _ => trivial)) ?_
  intro _ _
  refine Triple.bind (outside_rule Steady.true_ (fun _ _ _ => trivial)) ?_
  intro _
  refine Triple.via (fun saved world => forall intent, saved = some intent ->
    Saved ⟨.root, request⟩ intent world) (query_rule Steady.true_ ?_ (fun _ _ _ => trivial)) ?_
  · intro world saved _ _ read
    cases read
    exact fun _ found => found
  intro saved
  cases saved with
  | none =>
      refine Triple.starting (fun _ _ _ => trivial) ?_
      refine Triple.bind (reserveAdmin_rule name budget request seen) ?_
      intro intent
      refine Triple.given ?_
      rintro ⟨pending, same⟩
      subst same
      exact completeAdmin_rule id now name hash request pending
  | some intent =>
      refine Triple.starting (fun _ _ saved => saved intent rfl) ?_
      refine Triple.bindFact (check_rule (fun _ _ _ => trivial)) ?_
      intro _ matching
      simp only [Outcome.refuse_eq_ok, Bool.or_eq_false_iff, bne_eq_false_iff_eq] at matching
      rcases matching with ⟨⟨⟨_, _⟩, _⟩, same⟩
      subst same
      cases completed : intent.accountId with
      | some created =>
          exact createdAdmin_rule created (Saved.steady _ intent) (fun _ _ _ => trivial)
      | none => exact completeAdmin_rule id now name hash request completed

end Creating

/-! ## Cancelling and purging -/

section Leaving

variable {env : Environment} {cfg : AppConfig}

/-- The virtual parent that gets quota back, if there is one. -/
def Parent (parent : Option Account) (world : World) : Prop :=
  forall owner, parent = some owner -> Reads owner world ∧ owner.kind = .virtual

theorem Parent.steady (parent : Option Account) : Steady (Parent parent) := by
  intro world later same native holds owner given
  exact ⟨Reads.steady owner world later same native (holds owner given).1, (holds owner given).2⟩

/-- Accounts stay, so a parent does. -/
theorem Parent.change {parent : Option Account} {world : World} {final : Store}
    (holds : Parent parent world)
    (change : AccountsChange world.store.accounts final.accounts) :
    Parent parent { world with store := final } := by
  intro owner given
  rcases holds owner given with ⟨⟨row, found, kind, uid⟩, virtual⟩
  rcases change.kept found with ⟨new, newFound, continues⟩
  exact ⟨⟨new, newFound, continues.kind.trans kind, continues.uid.trans uid⟩, virtual⟩

theorem Parent.of_reads {owner : Account} {held : Option Nat} {world : World}
    (holding : held.isSome = true ↔ owner.kind = .virtual) (reads : Reads owner world) :
    Parent (if held.isSome = true then some owner else none) world := by
  intro other given
  by_cases reserved : held.isSome = true
  · rw [if_pos reserved] at given
    cases given
    exact ⟨reads, holding.mp reserved⟩
  · rw [if_neg reserved] at given
    cases given

theorem raiseParent_rule (parent : Option Account) :
    Triple (Bounded cfg) (Parent parent) (raiseParent env cfg parent)
      (fun _ _ => True) (fun _ => True) := by
  cases parent with
  | none => exact Triple.pure (fun _ _ _ => trivial)
  | some owner =>
      refine Triple.via (fun limit world => Allots owner.id owner.uid limit world) ?_ ?_
      · refine Triple.via (fun quota world => ∃ bytes, quota = some bytes ∧
          Allots owner.id owner.uid bytes world)
          (query_rule (Parent.steady (some owner)) ?_ (fun _ _ _ => trivial)) ?_
        · intro world quota sound holds read
          rcases holds owner rfl with ⟨reads, virtual⟩
          exact effective_of_reads sound reads read virtual
        · intro quota
          refine Triple.ofExcept ?_ (fun _ _ _ => trivial)
          rintro limit given world _ ⟨bytes, same, allots⟩
          cases same.symm.trans (Outcome.okOr_eq_ok.mp given)
          exact allots
      · intro limit
        refine nativeSet_rule (Allots.steady owner.id owner.uid limit) ?_ (fun _ _ _ _ => trivial)
          (fun _ _ _ => ⟨trivial, trivial⟩)
        intro world sound allots
        exact sound.mayApply_of_promises allots.promises

theorem cancelledOwner_rule {before : World -> Prop} (seen : Surroundings) (owner : IntentOwner)
    (steady : Steady before) :
    Triple (Bounded cfg) before (cancelledOwner env cfg seen owner)
      (fun parent world => before world ∧ Parent parent world) (fun _ => True) := by
  cases owner with
  | root => exact Triple.pure (fun _ _ holds => ⟨holds, fun _ impossible => nomatch impossible⟩)
  | account id =>
      refine Triple.via (fun owner world => before world ∧ Reads owner world)
        (query_rule steady ?_ (fun _ _ _ => trivial)) ?_
      · intro world owner _ holds read
        exact ⟨holds, (reads_of_account read).2⟩
      intro owner
      refine Triple.bindFact (ownReservation_rule owner seen.parentUsed
        (steady.and (Reads.steady owner)) (fun _ _ _ => trivial)) ?_
      intro held holding
      refine Triple.pure ?_
      rintro world _ ⟨holds, reads⟩
      exact ⟨holds, Parent.of_reads holding reads⟩

theorem cancelPending_rule (now : Nat) (key : IntentKey) (seen : Surroundings) :
    Triple (Bounded cfg) (fun _ => True) (cancelPending env cfg now key seen)
      (fun _ _ => True) (fun _ => True) := by
  refine Triple.via (fun saved world => Saved key saved world)
    (query_rule Steady.true_ (fun _ _ _ _ read => Outcome.okOr_eq_ok.mp read)
      (fun _ _ _ => trivial)) ?_
  intro saved
  have steady := Saved.steady key saved
  refine Triple.bindFact (check_rule (fun _ _ _ => trivial)) ?_
  intro _ _
  refine Triple.bind (outside_rule steady (fun _ _ _ => trivial)) ?_
  intro _
  refine Triple.bindFact (check_rule (fun _ _ _ => trivial)) ?_
  intro _ _
  refine Triple.bind (cancelledOwner_rule seen saved.owner steady) ?_
  intro parent
  refine Triple.via (fun _ => Parent parent)
    (transact_rule (steady.and (Parent.steady parent)) ?_ (fun _ _ _ => trivial)) ?_
  · rintro world value final sound ⟨found, holds⟩ done
    cases done
    have applied : (StoreOp.cancelIntent now key saved.uid).apply env world.store =
        .ok (world.store.cancelIntent now key saved.uid) := rfl
    have allocated := sound.allocated.apply applied
    rcases cancelIntent_eq world.store now saved.uid key with ⟨retired, retires, written⟩
    rw [written] at allocated ⊢
    exact ⟨sound.cancel found retires allocated, holds⟩
  · intro _
    exact raiseParent_rule parent

theorem clearHome_rule {before : World -> Prop} (now : Nat) (target : Account)
    (intent : Option (Nat × Text)) (steady : Steady before)
    (keeps : forall world final, before world ->
      AccountsChange world.store.accounts final.accounts ->
      before { world with store := final }) :
    Triple (Bounded cfg) before (clearHome env cfg now target intent) (fun _ => before)
      (fun _ => True) := by
  refine Triple.bind (rootOf_rule target steady (fun _ _ _ => trivial)) ?_
  intro _
  refine Triple.bind (outside_rule steady (fun _ _ _ => trivial)) ?_
  intro _
  refine Triple.via (fun _ => before) (Triple.provided ?_ (fun _ _ _ holds => holds)) ?_
  · intro _
    refine transact_rule steady ?_ (fun _ _ _ => trivial)
    rintro world value final sound holds done
    have bounded := sound.recordPurgeIntent env done
    rcases recordPurgeIntent_ok done with ⟨uid, intents, retired, _, written⟩
    subst written
    exact ⟨bounded, keeps world _ holds .same⟩
  · intro _
    exact outside_rule steady (fun _ _ _ => trivial)

theorem purgeOne_rule (now : Nat) (seen : Surroundings) (id : Uuid) :
    Triple (Bounded cfg) (fun _ => True) (purgeOne env cfg now seen id)
      (fun _ _ => True) (fun _ => True) := by
  refine Triple.via (fun _ _ => True) (query_rule Steady.true_ (fun _ _ _ _ _ => trivial)
    (fun _ _ _ => trivial)) ?_
  intro target
  refine Triple.bindFact (check_rule (fun _ _ _ => trivial)) ?_
  intro ownerId _
  refine Triple.via (fun owner world => Reads owner world)
    (query_rule Steady.true_ (fun _ _ _ _ read => (reads_of_account read).2)
      (fun _ _ _ => trivial)) ?_
  intro owner
  refine Triple.bindFact (ownReservation_rule owner seen.parentUsed (Reads.steady owner)
    (fun _ _ _ => trivial)) ?_
  intro parent holding
  refine Triple.starting (fun _ _ reads => Parent.of_reads holding reads) ?_
  have steady := Parent.steady (if parent.isSome = true then some owner else none)
  refine Triple.via (fun _ => Parent _)
    (query_rule steady (fun _ _ _ holds _ => holds) (fun _ _ _ => trivial)) ?_
  intro intent
  refine Triple.bindFact (check_rule (fun _ _ _ => trivial)) ?_
  intro _ _
  refine Triple.bind (outside_rule steady (fun _ _ _ => trivial)) ?_
  intro _
  refine Triple.bindFact (check_rule (fun _ _ _ => trivial)) ?_
  intro _ _
  refine Triple.via (fun _ => Parent _) (Triple.provided ?_ (fun _ _ _ holds => holds)) ?_
  · intro _
    exact clearHome_rule now target intent steady (fun _ _ holds change => holds.change change)
  intro _
  refine Triple.bind (outside_rule steady (fun _ _ _ => trivial)) ?_
  intro _
  refine Triple.via (fun _ => Parent (if parent.isSome = true then some owner else none))
    (transact_rule steady ?_ (fun _ _ _ => trivial)) ?_
  · intro world value final sound holds done
    have applied : (StoreOp.purge now id target.uid).apply env world.store = .ok final :=
      congrArg StoreOp.committed done
    exact ⟨sound.purge env done, holds.change (StoreOp.apply_accounts applied)⟩
  · intro _
    exact raiseParent_rule _

theorem purgeEach_rule (now : Nat) (seen : Surroundings) (ids : List Uuid) :
    Triple (Bounded cfg) (fun _ => True) (purgeEach env cfg now seen ids)
      (fun _ _ => True) (fun _ => True) := by
  induction ids with
  | nil => exact Triple.pure (fun _ _ _ => trivial)
  | cons id rest ih =>
      refine Triple.bind (purgeOne_rule now seen id) ?_
      intro _
      exact ih

theorem purgeDeleted_rule (now : Nat) (seen : Surroundings) :
    Triple (Bounded cfg) (fun _ => True) (purgeDeleted env cfg now seen)
      (fun _ _ => True) (fun _ => True) := by
  refine Triple.bindFact (check_rule (fun _ _ _ => trivial)) ?_
  intro _ _
  refine Triple.via (fun _ _ => True) (query_rule Steady.true_ (fun _ _ _ _ _ => trivial)
    (fun _ _ _ => trivial)) ?_
  intro ids
  exact purgeEach_rule now seen ids

end Leaving

/-! ## Whole runs -/

section Runs

variable {env : Environment} {cfg : AppConfig}

/-- The snapshot of a quota change is still right when the lock is taken. -/
def Call.current (world : World) : Call -> Prop
  | .setQuota _ _ target .. => Current target world
  | _ => True

theorem Call.run_rule (call : Call) :
    Triple (Bounded cfg) (fun world => call.given world ∧ call.current world) (call.run env cfg)
      (fun _ _ => True) (fun _ => True) := by
  have discard : forall {Value : Type} {program : Provisioning Value} {before : World -> Prop},
      Triple (Bounded cfg) before program (fun _ _ => True) (fun _ => True) ->
      Triple (Bounded cfg) before (do let _ ← program; return ()) (fun _ _ => True)
        (fun _ => True) := by
    intro Value program before holds
    exact holds.bind (fun _ => Triple.pure (fun _ _ _ => trivial))
  cases call with
  | provision id now actor name quota hash request seen =>
      refine Triple.starting (fun _ _ both => both.1) ?_
      exact discard (provision_rule id now actor name quota hash request seen)
  | createAdmin id now name budget hash request seen =>
      refine Triple.starting (fun _ _ _ => trivial) ?_
      exact discard (createAdmin_rule id now name budget hash request seen)
  | setQuota now authority target generation bytes seen =>
      exact discard (setQuota_rule now authority target generation bytes seen)
  | setBudget id bytes seen =>
      exact Triple.starting (fun _ _ _ => trivial) (setBudget_rule id bytes seen)
  | setOwnQuota now id bytes seen =>
      exact Triple.starting (fun _ _ _ => trivial) (setOwnQuota_rule now id bytes seen)
  | cancelPending now key seen =>
      exact Triple.starting (fun _ _ _ => trivial) (cancelPending_rule now key seen)
  | purgeDeleted now seen =>
      exact Triple.starting (fun _ _ _ => trivial) (purgeDeleted_rule now seen)

theorem Bounded.visited {world : World} (sound : Bounded cfg world) (sessions : List Session)
    (each : eachCall env cfg (fun world call => call.given world ∧ call.current world) world
      sessions) :
    forall passed, passed ∈ visited env cfg world sessions -> Bounded cfg passed := by
  induction sessions generalizing world with
  | nil =>
      intro passed member
      exact List.mem_singleton.mp member ▸ sound
  | cons session rest ih =>
      rcases each with ⟨condition, later⟩
      have quiet : Stable (World.move env) (Bounded cfg) (fun _ => True) := Steady.true_.stable
      rcases quiet.path sound trivial session.idle with ⟨idle, locked, _⟩
      have run : Faults.Sound (Bounded cfg) (session.behaviour env cfg world) _ _ :=
        Call.run_rule session.call session.events _ locked condition
      intro passed member
      rcases List.mem_cons.mp member with here | member
      · exact here ▸ sound
      rcases List.mem_append.mp member with member | member
      · rcases List.mem_append.mp member with before | during
        · exact idle passed before
        · exact run.visited passed during
      · exact ih run.world later passed member

/-- The kernel's limit of every virtual account that is not purged is covered. -/
def World.Covered (world : World) : Prop :=
  forall id row limit, world.store.accounts.find id = some row -> row.kind = .virtual ->
    world.store.virtualPurged.find id = none -> world.native row.uid = some limit ->
    ∃ bytes, world.store.effectiveQuota id = .ok (some bytes) ∧ limit ≤ bytes

/-- In every run whose quota changes get a current snapshot, through every
failure and every death of the process, the kernel never allows an account more
than the database gives it. -/
theorem native_limits_never_exceed (env : Environment) (cfg : AppConfig) (dummyPasswordHash : Text)
    (sessions : List Session)
    (each : eachCall env cfg (fun world call => call.given world ∧ call.current world)
      (World.initial dummyPasswordHash) sessions) :
    forall world, world ∈ visited env cfg (World.initial dummyPasswordHash) sessions ->
      world.Covered := by
  intro world member id row limit found virtual unpurged applied
  have sound := (Bounded.initial cfg dummyPasswordHash).visited sessions each world member
  exact ⟨_, effectiveQuota_of_virtual sound.allocated found virtual,
    sound.within id row limit found virtual unpurged applied⟩

end Runs

/-! ## Two quota changes from one snapshot -/

/-- The world after a sequence of calls. -/
def after (env : Environment) (cfg : AppConfig) (world : World) (sessions : List Session) : World :=
  Runs.run (fun world session => (Session.behaviour env cfg world session).world) world sessions

theorem after_mem_visited (env : Environment) (cfg : AppConfig) (world : World)
    (sessions : List Session) : after env cfg world sessions ∈ visited env cfg world sessions := by
  induction sessions generalizing world with
  | nil => exact List.mem_singleton_self world
  | cons session rest ih => exact List.mem_cons_of_mem _ (List.mem_append_right _ (ih _))

namespace Snapshot

def config : AppConfig :=
  { AppConfig.standard with
    virtualAccounts := ⟨true, false, 36, 4096, .userQuota, 100000⟩
    webAccounts := ⟨true, none, true, [], 200000, 200003, []⟩
    homeTemplate := some AllowedRoot.standard }

def environment : Environment := ⟨⟨fun _ _ => .ok false⟩, fun _ => [], ⟨fun _ => 0⟩⟩

def surroundings : Surroundings := ⟨0, 0, false, [], fun _ => true, fun _ => false⟩

/-- No step fails. -/
def smooth : List (Faults.Event Move StoreError) := List.replicate 60 ⟨[], .done⟩

def admin : Account where
  username := "adm".toList
  uid := 200000
  gid := 200000
  home := home 200000
  kind := .virtual
  role := .admin
  ownerAdminId := none
  status := .active
  loginEnabled := true
  generation := 1
  quotaBytes := none
  undoHours := none
  createdAt := 0
  updatedAt := 0
  deletedAt := none
  denyEnrollment := false
  id := 1
  globalAdmin := false
  passwordChangeRequired := false
  passwordEnrolled := true

def child : Account :=
  { admin with
    username := "kid".toList
    uid := 200001
    gid := 200001
    home := home 200001
    role := .user
    ownerAdminId := some 1
    quotaBytes := some 524288
    id := 2
    passwordChangeRequired := true }

/-- An administrator, and a child of 512 KiB that a caller reads. -/
def setup : List Session :=
  [⟨[.commit (.setPool .root 1048576)],
      .createAdmin 1 0 "adm".toList 1048576 [] 7 surroundings, smooth⟩,
    ⟨[.get 1], .provision 2 0 admin "kid".toList 524288 [] 8 surroundings, smooth⟩]

def change (idle : List Move) (bytes : Nat) : Session :=
  ⟨idle, .setQuota 0 (.account 1 1) child 1 bytes surroundings, smooth⟩

/-- Both changes come from one snapshot; the second one is a conflict. -/
def stale : List Session := setup ++ [change [.get 2] 307200, change [] 409600]

end Snapshot

open Snapshot in
theorem native_limits_never_exceed_smooth :
    (after environment config (World.initial [])
      (setup ++ [change [.get 2] 307200])).Covered := by
  refine native_limits_never_exceed environment config [] (setup ++ [change [.get 2] 307200]) ?_ _
    (after_mem_visited _ _ _ _)
  refine ⟨⟨trivial, trivial⟩, ⟨?_, trivial⟩, ⟨?_, ?_⟩, trivial⟩
  · change admin ∈ _
    decide
  · change child ∈ _
    decide
  · intro row found
    have same : ((Session.locked environment (after environment config (World.initial []) setup)
        (change [.get 2] 307200)).store.accounts.find child.id).map
          (fun row => row.quotaBytes) = some child.quotaBytes := by decide
    rcases Option.map_eq_some_iff.mp same with ⟨present, presentFound, quota⟩
    cases presentFound.symm.trans found
    exact quota

open Snapshot in
/-- The error path of the second change puts back the limit of its snapshot,
which the database has given away since. -/
theorem stale_snapshot_exceeds :
    eachCall environment config (fun world call => call.given world) (World.initial []) stale ∧
      ∃ world, world ∈ visited environment config (World.initial []) stale ∧ ¬ world.Covered := by
  refine ⟨⟨trivial, ?_, ?_, ?_, trivial⟩, _, after_mem_visited _ _ _ _, ?_⟩
  · change admin ∈ _
    decide
  · change child ∈ _
    decide
  · change child ∈ _
    decide
  · intro covered
    have present : ((after environment config (World.initial []) stale).store.accounts.find 2).map
        (fun row => (row.kind, row.uid)) = some (.virtual, 200001) := by decide
    have unpurged : (after environment config (World.initial []) stale).store.virtualPurged.find 2 =
        none := by decide
    have applied : (after environment config (World.initial []) stale).native 200001 =
        some 524288 := by decide
    have effective : (after environment config (World.initial []) stale).store.effectiveQuota 2 =
        .ok (some 307200) := by decide
    rcases Option.map_eq_some_iff.mp present with ⟨row, found, columns⟩
    have kind : row.kind = .virtual := congrArg Prod.fst columns
    have uid : row.uid = 200001 := congrArg Prod.snd columns
    rw [← uid] at applied
    rcases covered 2 row 524288 found kind unpurged applied with ⟨bytes, allowed, below⟩
    cases effective.symm.trans allowed
    omega

end TealDrive
