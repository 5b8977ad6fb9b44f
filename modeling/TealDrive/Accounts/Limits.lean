import Mathlib.Data.List.Count
import TealDrive.Accounts.Runs

namespace TealDrive

open Outcome

/-!
# Login reservations

Every login attempt is charged to three counters before its password is
checked: one of the account, one of the address, one for everybody.  A counter
belongs to a window, and a window is known only by its deadline.  A successful
login refunds its own reservation, at any later time.

The machine below keeps a ledger beside the database: every reservation that
was ever granted and every reservation that was refunded.  The invariant says
that the counters are the balance of the ledger.
-/

/-- What the limiter takes from outside: the address parser and the digest of a
key. -/
structure LoginHashing where
  parseIp : Text -> Option Text
  digest : Text -> Text

abbrev LimitKey := LimitScope × Text

/-- A charged counter with the deadline of its window. -/
abbrev Slot := LimitKey × Nat

abbrev LimitRows := Table LimitKey LimitRow

/-- `LoginReservation`. -/
abbrev LoginReservation := List Slot

def LimitScope.name : LimitScope -> Text
  | .account => "account".toList
  | .ip => "ip".toList
  | .global => "global".toList

def saturatingMul (left right : Nat) : Nat := min (left * right) i64Max

/-- The most a counter of the scope may hold. -/
def RateLimitConfig.limit (config : RateLimitConfig) : LimitScope -> Nat
  | .account => config.maxLoginFailures
  | .ip => saturatingMul config.maxLoginFailures 5
  | .global => saturatingMul config.maxLoginFailures 40

/-! ## The operations -/

section Operations

variable (hashing : LoginHashing) (config : RateLimitConfig)

def limitKey (scope : LimitScope) (key : Text) : LimitKey :=
  (scope, hashing.digest ("tealdrive-login-v1:".toList ++ scope.name ++ ":".toList ++ key))

/-- The counters of an attempt, in the order they are charged. -/
def limitKeys (username : Text) (ip : Option Text) : Except StoreError (List LimitKey) :=
  let shared := [limitKey hashing .account username, limitKey hashing .global "all".toList]
  match ip with
  | none => .ok shared
  | some ip => do
      let address ← okOr (hashing.parseIp ip) .invalidInput
      return shared ++ [limitKey hashing .ip address]

/-- Charge one counter.  `taken` counters were charged before it. -/
def reserveOne (at_ until_ count taken : Nat) (key : LimitKey) (rows : LimitRows) :
    Except StoreError (Nat × LimitRows) := do
  let existing := rows.find key
  let failures := (existing.map (fun row => row.failures)).getD 0
  let deadline := (existing.map (fun row => row.lockUntil)).getD until_
  refuse (decide (failures ≥ config.limit key.1) ||
    existing.isNone && decide (count + taken ≥ 10000)) .rateLimited
  return (deadline, rows.insert key ⟨failures + 1, deadline, at_⟩)

def reserveEach (at_ until_ count : Nat) :
    Nat -> List LimitKey -> LimitRows -> Except StoreError (LoginReservation × LimitRows)
  | _, [], rows => .ok ([], rows)
  | taken, key :: rest, rows => do
      let (deadline, charged) ← reserveOne config at_ until_ count taken key rows
      let (slots, final) ← reserveEach at_ until_ count (taken + 1) rest charged
      return ((key, deadline) :: slots, final)

/-- `DELETE FROM login_limits WHERE lock_until<=?`. -/
def unexpired (at_ : Nat) (rows : LimitRows) : LimitRows :=
  rows.filter (fun _ row => decide (at_ < row.lockUntil))

def Store.reserveLogin (username : Text) (ip : Option Text) (at_ : Nat) (store : Store) :
    Except StoreError (LoginReservation × Store) := do
  refuse (decide (username.len > 256) || config.maxLoginFailures == 0 ||
    config.lockoutDurationSeconds == 0) .invalidInput
  let _ ← number at_
  let _ ← number config.lockoutDurationSeconds
  refuse (decide (at_ + config.lockoutDurationSeconds > i64Max)) .invalidInput
  let keys ← limitKeys hashing username ip
  let kept := unexpired at_ store.loginLimits
  let (reservation, rows) ← reserveEach config at_ (at_ + config.lockoutDurationSeconds) kept.size 0
    keys kept
  return (reservation, { store with loginLimits := rows })

end Operations

/-- Refund one slot, if its window is still open. -/
def refundOne (slot : Slot) (rows : LimitRows) : LimitRows :=
  rows.modify slot.1 (fun row =>
    if row.lockUntil = slot.2 then { row with failures := row.failures - 1 } else row)

def refundEach : LoginReservation -> LimitRows -> LimitRows
  | [], rows => rows
  | slot :: rest, rows => refundEach rest (refundOne slot rows)

def Store.finishLogin (reservation : LoginReservation) (store : Store) : Store :=
  { store with loginLimits := refundEach reservation store.loginLimits }

/-! ## Runs -/

/-- A call, or a reservation that is never refunded: its caller stopped, or
`finish_login` failed after taking it. -/
inductive LoginEvent where
  | reserve (elapsed : Nat) (username : Text) (ip : Option Text)
  | finish (reservation : LoginReservation)
  | lose (reservation : LoginReservation)

/-- An attempt that was granted, and what it was charged. -/
structure LoginAttempt where
  at_ : Nat
  username : Text
  ip : Option Text
  reservation : LoginReservation

/-- The database, the time, the reservations callers hold, and the ledger. -/
structure LoginState where
  store : Store
  clock : Nat
  outstanding : List LoginReservation
  attempts : List LoginAttempt
  refunded : List LoginReservation

namespace LoginState

/-- The reservations that were granted. -/
def granted (state : LoginState) : List LoginReservation :=
  state.attempts.map LoginAttempt.reservation

def initial (store : Store) : LoginState :=
  ⟨{ store with loginLimits := .empty }, 0, [], [], []⟩

/-- A reservation is used up by the call that finishes it. -/
def step (hashing : LoginHashing) (config : RateLimitConfig) (state : LoginState) :
    LoginEvent -> LoginState
  | .reserve elapsed username ip =>
      match state.store.reserveLogin hashing config username ip (state.clock + elapsed) with
      | .error _ => { state with clock := state.clock + elapsed }
      | .ok (reservation, store) =>
          { store := store
            clock := state.clock + elapsed
            outstanding := reservation :: state.outstanding
            attempts := ⟨state.clock + elapsed, username, ip, reservation⟩ :: state.attempts
            refunded := state.refunded }
  | .finish reservation =>
      if reservation ∈ state.outstanding then
        { state with
          store := state.store.finishLogin reservation
          outstanding := state.outstanding.erase reservation
          refunded := reservation :: state.refunded }
      else state
  | .lose reservation => { state with outstanding := state.outstanding.erase reservation }

variable {hashing : LoginHashing} {config : RateLimitConfig} {state : LoginState}

theorem step_of_refused {elapsed : Nat} {username : Text} {ip : Option Text} {problem : StoreError}
    (refused : state.store.reserveLogin hashing config username ip (state.clock + elapsed) =
      .error problem) :
    step hashing config state (.reserve elapsed username ip) =
      { state with clock := state.clock + elapsed } := by
  simp only [step, refused]

theorem step_of_granted {elapsed : Nat} {username : Text} {ip : Option Text}
    {reservation : LoginReservation} {after : Store}
    (done : state.store.reserveLogin hashing config username ip (state.clock + elapsed) =
      .ok (reservation, after)) :
    step hashing config state (.reserve elapsed username ip) =
      ⟨after, state.clock + elapsed, reservation :: state.outstanding,
        ⟨state.clock + elapsed, username, ip, reservation⟩ :: state.attempts, state.refunded⟩ := by
  simp only [step, done]

theorem step_of_held {reservation : LoginReservation} (held : reservation ∈ state.outstanding) :
    step hashing config state (.finish reservation) =
      { state with
        store := state.store.finishLogin reservation
        outstanding := state.outstanding.erase reservation
        refunded := reservation :: state.refunded } :=
  if_pos held

theorem step_of_foreign {reservation : LoginReservation}
    (foreign : reservation ∉ state.outstanding) :
    step hashing config state (.finish reservation) = state :=
  if_neg foreign

end LoginState

/-! ## The balance -/

/-- The counters are the balance of the ledger at the given time. -/
structure Balanced (config : RateLimitConfig) (clock : Nat) (rows : LimitRows)
    (granted refunded pending : List Slot) : Prop where
  counted : forall key row, rows.find key = some row ->
    row.failures + refunded.count (key, row.lockUntil) = granted.count (key, row.lockUntil)
  open_ : forall key deadline, (key, deadline) ∈ granted -> clock < deadline ->
    ∃ row, rows.find key = some row ∧ row.lockUntil = deadline
  latest : forall key deadline row, (key, deadline) ∈ granted -> rows.find key = some row ->
    deadline ≤ row.lockUntil
  bounded : forall slot, granted.count slot ≤ refunded.count slot + config.limit slot.1.1
  held : forall slot, refunded.count slot + pending.count slot ≤ granted.count slot
  small : rows.size ≤ 10000

namespace Balanced

variable {config : RateLimitConfig} {clock : Nat} {rows : LimitRows}
  {granted refunded pending : List Slot}

/-- Time passes, and expired rows may go. -/
theorem expire (sound : Balanced config clock rows granted refunded pending) {at_ : Nat}
    (later : clock ≤ at_) :
    Balanced config at_ (unexpired at_ rows) granted refunded pending where
  counted := by
    intro key row found
    unfold unexpired at found
    rw [Table.find_filter] at found
    exact sound.counted key row (Option.filter_eq_some_iff.mp found).1
  open_ := by
    intro key deadline member ahead
    rcases sound.open_ key deadline member (by omega) with ⟨row, found, same⟩
    refine ⟨row, ?_, same⟩
    unfold unexpired
    rw [Table.find_filter, Option.filter_eq_some_iff, decide_eq_true_eq, same]
    exact ⟨found, ahead⟩
  latest := by
    intro key deadline row member found
    unfold unexpired at found
    rw [Table.find_filter] at found
    exact sound.latest key deadline row member (Option.filter_eq_some_iff.mp found).1
  bounded := sound.bounded
  held := sound.held
  small := Nat.le_trans (List.length_filter_le _ _) sound.small

theorem wait (sound : Balanced config clock rows granted refunded pending) {at_ : Nat}
    (later : clock ≤ at_) : Balanced config at_ rows granted refunded pending :=
  { sound with
    open_ := fun key deadline member ahead => sound.open_ key deadline member (by omega) }

theorem reorder (sound : Balanced config clock rows granted refunded pending)
    {charged returned left : List Slot} (sameGranted : granted.Perm charged)
    (sameRefunded : refunded.Perm returned) (fewer : forall slot, left.count slot ≤ pending.count slot) :
    Balanced config clock rows charged returned left where
  counted := by
    intro key row found
    rw [← sameGranted.count_eq, ← sameRefunded.count_eq]
    exact sound.counted key row found
  open_ := fun key deadline member => sound.open_ key deadline (sameGranted.mem_iff.mpr member)
  latest := fun key deadline row member =>
    sound.latest key deadline row (sameGranted.mem_iff.mpr member)
  bounded := by
    intro slot
    rw [← sameGranted.count_eq, ← sameRefunded.count_eq]
    exact sound.bounded slot
  held := by
    intro slot
    rw [← sameGranted.count_eq, ← sameRefunded.count_eq]
    have more := fewer slot
    have before := sound.held slot
    omega
  small := sound.small

/-! ### One charge -/

/-- The window a counter is in, or the window a charge opens. -/
def window (rows : LimitRows) (key : LimitKey) (until_ : Nat) : Nat :=
  ((rows.find key).map (fun row => row.lockUntil)).getD until_

theorem reserveOne_ok {at_ until_ count taken : Nat} {key : LimitKey} {deadline : Nat}
    {charged : LimitRows}
    (done : reserveOne config at_ until_ count taken key rows = .ok (deadline, charged)) :
    ∃ failures, failures < config.limit key.1 ∧
      deadline = window rows key until_ ∧
      charged = rows.insert key ⟨failures + 1, deadline, at_⟩ ∧
      (forall row, rows.find key = some row -> failures = row.failures) ∧
      (rows.find key = none -> failures = 0 ∧ count + taken < 10000) := by
  unfold reserveOne at done
  simp only [bind_eq_ok, refuse_eq_ok, pure_eq_ok, Prod.mk.injEq] at done
  rcases done with ⟨_, open_, same, rfl⟩
  rw [Bool.or_eq_false_iff, decide_eq_false_iff_not, Nat.not_le] at open_
  refine ⟨_, open_.1, same.symm, by rw [same], ?_, ?_⟩
  · intro row found
    rw [found]
    rfl
  · intro absent
    have room := open_.2
    rw [absent] at room ⊢
    simp only [Option.isNone_none, Bool.true_and, decide_eq_false_iff_not, Nat.not_le] at room
    exact ⟨rfl, room⟩

/-- Where a charge lands: the counter so far is the balance of its window, and
no other window of the key is open or later. -/
structure Lands (clock : Nat) (granted refunded : List Slot) (key : LimitKey)
    (deadline failures : Nat) : Prop where
  balance : failures + refunded.count (key, deadline) = granted.count (key, deadline)
  last : forall other, (key, other) ∈ granted -> other ≤ deadline
  only : forall other, (key, other) ∈ granted -> clock < other -> other = deadline

theorem lands_in_open (sound : Balanced config clock rows granted refunded pending)
    {key : LimitKey} {row : LimitRow} (found : rows.find key = some row) :
    Lands clock granted refunded key row.lockUntil row.failures where
  balance := sound.counted key row found
  last := fun other member => sound.latest key other row member found
  only := by
    intro other member ahead
    rcases sound.open_ key other member ahead with ⟨current, located, same⟩
    rw [found] at located
    cases located
    exact same.symm

/-- Without a row no window of the key is open, so a later deadline was never
granted. -/
theorem lands_in_fresh (sound : Balanced config clock rows granted refunded pending)
    {key : LimitKey} (absent : rows.find key = none) {until_ : Nat} (ahead : clock < until_) :
    Lands clock granted refunded key until_ 0 := by
  have closed : forall other, (key, other) ∈ granted -> other ≤ clock := by
    intro other member
    by_contra later
    rcases sound.open_ key other member (by omega) with ⟨row, found, _⟩
    rw [absent] at found
    cases found
  have never : granted.count (key, until_) = 0 := by
    apply List.count_eq_zero_of_not_mem
    intro member
    have early := closed until_ member
    omega
  have held := sound.held (key, until_)
  exact
    { balance := by omega
      last := fun other member => Nat.le_trans (closed other member) (Nat.le_of_lt ahead)
      only := fun other member later => absurd (closed other member) (by omega) }

/-- Charging a counter adds one slot to the ledger. -/
theorem write (sound : Balanced config clock rows granted refunded pending) {key : LimitKey}
    {deadline failures at_ : Nat} (lands : Lands clock granted refunded key deadline failures)
    (below : failures < config.limit key.1)
    (small : (rows.insert key ⟨failures + 1, deadline, at_⟩).size ≤ 10000) :
    Balanced config clock (rows.insert key ⟨failures + 1, deadline, at_⟩)
      ((key, deadline) :: granted) refunded ((key, deadline) :: pending) where
  counted := by
    intro other row found
    by_cases same : other = key
    · subst same
      rw [Table.find_insert_self] at found
      cases found
      have balance := lands.balance
      change failures + 1 + refunded.count (other, deadline) =
        ((other, deadline) :: granted).count (other, deadline)
      rw [List.count_cons_self]
      omega
    · rw [Table.find_insert_of_ne _ same] at found
      rw [List.count_cons_of_ne (by simp [Ne.symm same])]
      exact sound.counted other row found
  open_ := by
    intro other moment member ahead
    by_cases same : other = key
    · subst same
      refine ⟨_, Table.find_insert_self rows other _, ?_⟩
      rcases List.mem_cons.mp member with here | before
      · exact (congrArg Prod.snd here).symm
      · exact (lands.only moment before ahead).symm
    · rw [Table.find_insert_of_ne _ same]
      rcases List.mem_cons.mp member with here | before
      · exact absurd (congrArg Prod.fst here) same
      · exact sound.open_ other moment before ahead
  latest := by
    intro other moment row member found
    by_cases same : other = key
    · subst same
      rw [Table.find_insert_self] at found
      cases found
      rcases List.mem_cons.mp member with here | before
      · exact Nat.le_of_eq (congrArg Prod.snd here)
      · exact lands.last moment before
    · rw [Table.find_insert_of_ne _ same] at found
      rcases List.mem_cons.mp member with here | before
      · exact absurd (congrArg Prod.fst here) same
      · exact sound.latest other moment row before found
  bounded := by
    intro slot
    by_cases same : (key, deadline) = slot
    · subst same
      have balance := lands.balance
      change _ ≤ refunded.count (key, deadline) + config.limit key.1
      rw [List.count_cons_self]
      omega
    · rw [List.count_cons_of_ne same]
      exact sound.bounded slot
  held := by
    intro slot
    have before := sound.held slot
    rw [List.count_cons, List.count_cons]
    omega
  small := small

theorem charge (sound : Balanced config clock rows granted refunded pending)
    {until_ count taken : Nat} (ahead : clock < until_) (most : rows.size ≤ count + taken)
    {key : LimitKey} {deadline : Nat} {charged : LimitRows}
    (done : reserveOne config clock until_ count taken key rows = .ok (deadline, charged)) :
    Balanced config clock charged ((key, deadline) :: granted) refunded
        ((key, deadline) :: pending) ∧ charged.size ≤ count + (taken + 1) := by
  rcases reserveOne_ok done with ⟨failures, below, window, rfl, existing, fresh⟩
  cases found : rows.find key with
  | some row =>
      have counter := existing row found
      subst counter
      have current : deadline = row.lockUntil := by
        rw [window, Balanced.window, found]
        rfl
      subst current
      have same := Table.size_insert_of_found
        ⟨row.failures + 1, row.lockUntil, clock⟩ found
      have small := sound.small
      exact ⟨sound.write (sound.lands_in_open found) below (by omega), by omega⟩
  | none =>
      rcases fresh found with ⟨rfl, room⟩
      have opened : deadline = until_ := by
        rw [window, Balanced.window, found]
        rfl
      subst opened
      have more := Table.size_insert_of_absent ⟨0 + 1, deadline, clock⟩ found
      exact ⟨sound.write (sound.lands_in_fresh found ahead) below (by omega), by omega⟩

/-- A whole reservation adds its slots to the ledger. -/
theorem reserve (sound : Balanced config clock rows granted refunded pending)
    {until_ count : Nat} (ahead : clock < until_) {taken : Nat}
    (most : rows.size ≤ count + taken) {keys : List LimitKey} {slots : LoginReservation}
    {final : LimitRows}
    (done : reserveEach config clock until_ count taken keys rows = .ok (slots, final)) :
    Balanced config clock final (slots ++ granted) refunded (slots ++ pending) := by
  induction keys generalizing taken rows granted pending slots with
  | nil =>
      cases done
      exact sound
  | cons key rest ih =>
      unfold reserveEach at done
      simp only [bind_eq_ok, pure_eq_ok, Prod.mk.injEq, Prod.exists] at done
      rcases done with ⟨deadline, charged, one, later, final, others, rfl, rfl⟩
      rcases sound.charge ahead most one with ⟨next, grown⟩
      have whole := ih next grown others
      refine whole.reorder List.perm_middle (List.Perm.refl refunded) ?_
      intro slot
      exact Nat.le_of_eq (List.perm_middle.count_eq slot).symm

/-! ### One refund -/

/-- A refund finds every row in the window it was in, with its counter lowered
exactly when that is the window of the refund. -/
theorem find_refundOne {slot : Slot} {rows : LimitRows} {key : LimitKey} {row : LimitRow}
    (found : (refundOne slot rows).find key = some row) :
    ∃ old, rows.find key = some old ∧ old.lockUntil = row.lockUntil ∧
      row.failures = if slot = (key, old.lockUntil) then old.failures - 1 else old.failures := by
  unfold refundOne at found
  by_cases same : key = slot.1
  · subst same
    rw [Table.find_modify_self] at found
    rcases Option.map_eq_some_iff.mp found with ⟨old, located, changed⟩
    refine ⟨old, located, ?_⟩
    by_cases current : old.lockUntil = slot.2
    · rw [if_pos current] at changed
      subst changed
      exact ⟨rfl, by rw [current, if_pos rfl]⟩
    · rw [if_neg current] at changed
      subst changed
      refine ⟨rfl, ?_⟩
      rw [if_neg]
      intro equal
      exact current (congrArg Prod.snd equal).symm
  · rw [Table.find_modify_of_ne _ same] at found
    refine ⟨row, found, rfl, ?_⟩
    rw [if_neg]
    intro equal
    exact same (congrArg Prod.fst equal).symm

/-- Refunding deletes no row and moves no deadline. -/
theorem refundOne_window (slot : Slot) {rows : LimitRows} {key : LimitKey} {row : LimitRow}
    (found : rows.find key = some row) :
    ∃ after, (refundOne slot rows).find key = some after ∧ after.lockUntil = row.lockUntil := by
  unfold refundOne
  by_cases same : key = slot.1
  · subst same
    rw [Table.find_modify_self, found]
    refine ⟨_, rfl, ?_⟩
    dsimp only
    split
    · rfl
    · rfl
  · rw [Table.find_modify_of_ne _ same]
    exact ⟨row, found, rfl⟩

theorem refund_one {slot : Slot}
    (sound : Balanced config clock rows granted refunded (slot :: pending)) :
    Balanced config clock (refundOne slot rows) granted (slot :: refunded) pending where
  counted := by
    intro key row found
    rcases find_refundOne found with ⟨old, before, window, counter⟩
    have balance := sound.counted key old before
    rw [counter, ← window]
    by_cases same : slot = (key, old.lockUntil)
    · -- the slot was granted and not refunded yet, so the counter is not zero
      have held := sound.held slot
      subst same
      rw [List.count_cons_self] at held
      rw [if_pos rfl, List.count_cons_self]
      omega
    · rw [if_neg same, List.count_cons_of_ne same]
      exact balance
  open_ := by
    intro key deadline member ahead
    rcases sound.open_ key deadline member ahead with ⟨row, found, same⟩
    rcases refundOne_window slot found with ⟨after, located, kept⟩
    exact ⟨after, located, kept.trans same⟩
  latest := by
    intro key deadline row member found
    rcases find_refundOne found with ⟨old, before, window, _⟩
    rw [← window]
    exact sound.latest key deadline old member before
  bounded := by
    intro other
    have before := sound.bounded other
    rw [List.count_cons]
    omega
  held := by
    intro other
    have before := sound.held other
    rw [List.count_cons] at before ⊢
    omega
  small := by
    have same : (refundOne slot rows).size = rows.size := List.length_map _
    rw [same]
    exact sound.small

/-- Refunding a whole reservation moves its slots from pending to refunded. -/
theorem refund {slots : LoginReservation}
    (sound : Balanced config clock rows granted refunded (slots ++ pending)) :
    Balanced config clock (refundEach slots rows) granted (slots ++ refunded) pending := by
  induction slots generalizing rows refunded with
  | nil => exact sound
  | cons slot rest ih =>
      have whole := ih sound.refund_one
      exact whole.reorder (List.Perm.refl granted) List.perm_middle (fun _ => Nat.le_refl _)

end Balanced

/-! ## What a reservation holds -/

section Reservations

variable {hashing : LoginHashing} {config : RateLimitConfig}

theorem reserveLogin_ok {username : Text} {ip : Option Text} {at_ : Nat} {store after : Store}
    {reservation : LoginReservation}
    (done : store.reserveLogin hashing config username ip at_ = .ok (reservation, after)) :
    ∃ keys rows, limitKeys hashing username ip = .ok keys ∧
      0 < config.lockoutDurationSeconds ∧
      reserveEach config at_ (at_ + config.lockoutDurationSeconds)
        (unexpired at_ store.loginLimits).size 0 keys (unexpired at_ store.loginLimits) =
          .ok (reservation, rows) ∧
      after = { store with loginLimits := rows } := by
  unfold Store.reserveLogin at done
  simp only [bind_eq_ok, refuse_eq_ok, pure_eq_ok, Prod.exists, Prod.mk.injEq] at done
  rcases done with ⟨_, valid, _, _, _, _, _, _, keys, named, _, rows, each, rfl, rfl⟩
  rw [Bool.or_eq_false_iff, beq_eq_false_iff_ne] at valid
  exact ⟨keys, rows, named, Nat.pos_of_ne_zero valid.2, each, rfl⟩

/-- A reservation holds one slot for each key it was asked for. -/
theorem reserveEach_keys {at_ until_ count taken : Nat} {keys : List LimitKey}
    {rows final : LimitRows} {slots : LoginReservation}
    (done : reserveEach config at_ until_ count taken keys rows = .ok (slots, final)) :
    slots.map Prod.fst = keys := by
  induction keys generalizing taken rows slots with
  | nil =>
      cases done
      rfl
  | cons key rest ih =>
      unfold reserveEach at done
      simp only [bind_eq_ok, pure_eq_ok, Prod.mk.injEq, Prod.exists] at done
      rcases done with ⟨deadline, charged, _, later, final, others, rfl, rfl⟩
      rw [List.map_cons, ih others]

/-- The keys of an attempt are of different scopes. -/
theorem limitKeys_nodup {username : Text} {ip : Option Text} {keys : List LimitKey}
    (named : limitKeys hashing username ip = .ok keys) : keys.Nodup := by
  unfold limitKeys at named
  cases ip with
  | none =>
      cases named
      simp [limitKey]
  | some ip =>
      simp only [bind_eq_ok, okOr_eq_ok, pure_eq_ok] at named
      rcases named with ⟨address, _, rfl⟩
      simp [limitKey]

/-- No reservation charges one key twice. -/
def OncePerKey (reservation : LoginReservation) : Prop := (reservation.map Prod.fst).Nodup

theorem reserveLogin_once {username : Text} {ip : Option Text} {at_ : Nat} {store after : Store}
    {reservation : LoginReservation}
    (done : store.reserveLogin hashing config username ip at_ = .ok (reservation, after)) :
    OncePerKey reservation := by
  rcases reserveLogin_ok done with ⟨keys, rows, named, _, each, _⟩
  unfold OncePerKey
  rw [reserveEach_keys each]
  exact limitKeys_nodup named

/-- The windows of a reservation are open when it is granted. -/
theorem reserveEach_ahead {at_ until_ count taken : Nat} {keys : List LimitKey}
    {rows final : LimitRows} {slots : LoginReservation} (later : at_ < until_)
    (current : forall key row, rows.find key = some row -> at_ < row.lockUntil)
    (done : reserveEach config at_ until_ count taken keys rows = .ok (slots, final)) :
    forall slot, slot ∈ slots -> at_ < slot.2 := by
  induction keys generalizing taken rows slots with
  | nil =>
      cases done
      exact fun slot member => absurd member List.not_mem_nil
  | cons key rest ih =>
      unfold reserveEach at done
      simp only [bind_eq_ok, pure_eq_ok, Prod.mk.injEq, Prod.exists] at done
      rcases done with ⟨deadline, charged, one, slots, final, others, rfl, rfl⟩
      rcases Balanced.reserveOne_ok one with ⟨failures, _, window, rfl, _⟩
      have ahead : at_ < deadline := by
        rw [window]
        unfold Balanced.window
        cases found : rows.find key with
        | none => exact later
        | some row => exact current key row found
      refine List.forall_mem_cons.mpr ⟨ahead, ih ?_ others⟩
      intro other row found
      by_cases same : other = key
      · subst same
        rw [Table.find_insert_self] at found
        cases found
        exact ahead
      · rw [Table.find_insert_of_ne _ same] at found
        exact current other row found

theorem reserveLogin_ahead {username : Text} {ip : Option Text} {at_ : Nat} {store after : Store}
    {reservation : LoginReservation}
    (done : store.reserveLogin hashing config username ip at_ = .ok (reservation, after)) :
    forall slot, slot ∈ reservation -> at_ < slot.2 := by
  rcases reserveLogin_ok done with ⟨keys, rows, _, lasts, each, _⟩
  apply reserveEach_ahead (Nat.lt_add_of_pos_right lasts) _ each
  intro key row found
  unfold unexpired at found
  rw [Table.find_filter] at found
  exact of_decide_eq_true (Option.filter_eq_some_iff.mp found).2

/-- A granted reservation names the counters of its attempt. -/
theorem reserveLogin_keys {username : Text} {ip : Option Text} {at_ : Nat} {store after : Store}
    {reservation : LoginReservation}
    (done : store.reserveLogin hashing config username ip at_ = .ok (reservation, after)) :
    limitKeys hashing username ip = .ok (reservation.map Prod.fst) := by
  rcases reserveLogin_ok done with ⟨keys, rows, named, _, each, _⟩
  rw [reserveEach_keys each]
  exact named

theorem OncePerKey.deadline_eq {reservation : LoginReservation} (once : OncePerKey reservation)
    {key : LimitKey} {first second : Nat} (one : (key, first) ∈ reservation)
    (two : (key, second) ∈ reservation) : first = second :=
  congrArg Prod.snd (List.inj_on_of_nodup_map once one two rfl)

/-- The reservations that charged a counter in a window. -/
def charges (ledger : List LoginReservation) (slot : Slot) : Nat :=
  ledger.countP (fun reservation => decide (slot ∈ reservation))

/-- Each of them charged it once. -/
theorem charges_eq_count {ledger : List LoginReservation}
    (once : forall reservation, reservation ∈ ledger -> OncePerKey reservation) (slot : Slot) :
    charges ledger slot = ledger.flatten.count slot := by
  unfold charges
  induction ledger with
  | nil => rfl
  | cons first rest ih =>
      have distinct : first.Nodup := List.Nodup.of_map Prod.fst (once first List.mem_cons_self)
      have others := ih (fun other member => once other (List.mem_cons_of_mem first member))
      rw [List.countP_cons, List.flatten_cons, List.count_append, others, distinct.count,
        Nat.add_comm]
      simp only [decide_eq_true_eq]

/-- Refunds leave a row of a window they do not name alone. -/
theorem refundEach_other {slots : LoginReservation} {rows : LimitRows} {key : LimitKey}
    {row : LimitRow} (found : rows.find key = some row)
    (elsewhere : (key, row.lockUntil) ∉ slots) :
    (refundEach slots rows).find key = some row := by
  induction slots generalizing rows with
  | nil => exact found
  | cons slot rest ih =>
      rw [List.mem_cons, not_or] at elsewhere
      refine ih ?_ elsewhere.2
      unfold refundOne
      by_cases same : key = slot.1
      · subst same
        rw [Table.find_modify_self, found, Option.map_some, if_neg]
        intro current
        exact elsewhere.1 (Prod.ext rfl current)
      · rw [Table.find_modify_of_ne _ same]
        exact found

end Reservations

/-! ## Every run -/

namespace LoginState

variable {hashing : LoginHashing} {config : RateLimitConfig} {state : LoginState}

/-- The counters of a state are the balance of its ledger. -/
structure Sound (hashing : LoginHashing) (config : RateLimitConfig) (state : LoginState) :
    Prop where
  balanced : Balanced config state.clock state.store.loginLimits state.granted.flatten
    state.refunded.flatten state.outstanding.flatten
  charged : forall attempt, attempt ∈ state.attempts ->
    limitKeys hashing attempt.username attempt.ip = .ok (attempt.reservation.map Prod.fst)
  ahead : forall attempt, attempt ∈ state.attempts ->
    forall slot, slot ∈ attempt.reservation -> attempt.at_ < slot.2
  once : forall reservation, reservation ∈ state.granted -> OncePerKey reservation
  held : forall reservation, reservation ∈ state.outstanding -> reservation ∈ state.granted
  returned : forall reservation, reservation ∈ state.refunded -> reservation ∈ state.granted

theorem sound_initial (hashing : LoginHashing) (config : RateLimitConfig) (store : Store) :
    Sound hashing config (initial store) where
  balanced :=
    { counted := by
        intro key row found
        cases found
      open_ := fun _ _ member _ => absurd member List.not_mem_nil
      latest := fun _ _ _ member _ => absurd member List.not_mem_nil
      bounded := fun _ => Nat.zero_le _
      held := fun _ => Nat.le_refl 0
      small := Nat.zero_le _ }
  charged := fun _ member => absurd member List.not_mem_nil
  ahead := fun _ member => absurd member List.not_mem_nil
  once := fun _ member => absurd member List.not_mem_nil
  held := fun _ member => absurd member List.not_mem_nil
  returned := fun _ member => absurd member List.not_mem_nil

theorem Sound.reserve (sound : Sound hashing config state) (elapsed : Nat) (username : Text)
    (ip : Option Text) :
    Sound hashing config (step hashing config state (.reserve elapsed username ip)) := by
  cases done : state.store.reserveLogin hashing config username ip (state.clock + elapsed) with
  | error problem =>
      rw [step_of_refused done]
      exact { sound with balanced := sound.balanced.wait (Nat.le_add_right _ _) }
  | ok result =>
      rcases result with ⟨reservation, after⟩
      rw [step_of_granted done]
      have once := reserveLogin_once done
      rcases reserveLogin_ok done with ⟨keys, rows, _, lasts, each, rfl⟩
      have current := sound.balanced.expire (Nat.le_add_right state.clock elapsed)
      exact
        { balanced := current.reserve (Nat.lt_add_of_pos_right lasts) (Nat.le_refl _) each
          charged := List.forall_mem_cons.mpr ⟨reserveLogin_keys done, sound.charged⟩
          ahead := List.forall_mem_cons.mpr ⟨reserveLogin_ahead done, sound.ahead⟩
          once := List.forall_mem_cons.mpr ⟨once, sound.once⟩
          held := List.forall_mem_cons.mpr ⟨List.mem_cons_self,
            fun other member => List.mem_cons_of_mem _ (sound.held other member)⟩
          returned := fun other member => List.mem_cons_of_mem _ (sound.returned other member) }

/-- Taking a reservation out of the outstanding ones. -/
theorem outstanding_perm {outstanding : List LoginReservation} {reservation : LoginReservation}
    (held : reservation ∈ outstanding) :
    outstanding.flatten.Perm (reservation ++ (outstanding.erase reservation).flatten) :=
  (List.perm_cons_erase held).flatten

theorem Sound.finish (sound : Sound hashing config state) (reservation : LoginReservation) :
    Sound hashing config (step hashing config state (.finish reservation)) := by
  by_cases held : reservation ∈ state.outstanding
  · rw [step_of_held held]
    have named := sound.balanced.reorder (List.Perm.refl _) (List.Perm.refl _)
      (fun slot => Nat.le_of_eq ((outstanding_perm held).count_eq slot).symm)
    exact
      { balanced := named.refund
        charged := sound.charged
        ahead := sound.ahead
        once := sound.once
        held := fun other member => sound.held other (List.mem_of_mem_erase member)
        returned := List.forall_mem_cons.mpr ⟨sound.held reservation held, sound.returned⟩ }
  · rw [step_of_foreign held]
    exact sound

theorem Sound.lose (sound : Sound hashing config state) (reservation : LoginReservation) :
    Sound hashing config (step hashing config state (.lose reservation)) := by
  refine ⟨?_, sound.charged, sound.ahead, sound.once,
    fun other member => sound.held other (List.mem_of_mem_erase member), sound.returned⟩
  refine sound.balanced.reorder (List.Perm.refl _) (List.Perm.refl _) ?_
  intro slot
  by_cases held : reservation ∈ state.outstanding
  · rw [(outstanding_perm held).count_eq slot, List.count_append]
    exact Nat.le_add_left _ _
  · change (state.outstanding.erase reservation).flatten.count slot ≤ _
    rw [List.erase_of_not_mem held]

theorem step_sound (sound : Sound hashing config state) (event : LoginEvent) :
    Sound hashing config (step hashing config state event) := by
  cases event with
  | reserve elapsed username ip => exact sound.reserve elapsed username ip
  | finish reservation => exact sound.finish reservation
  | lose reservation => exact sound.lose reservation

theorem run_sound (sound : Sound hashing config state) (events : List LoginEvent) :
    Sound hashing config (Runs.run (step hashing config) state events) :=
  Runs.invariant (Sound hashing config) (fun _ event holds => step_sound holds event) sound events

/-- What the limiter promises of a state. -/
structure Exact (hashing : LoginHashing) (config : RateLimitConfig) (state : LoginState) :
    Prop where
  /-- Every attempt that was granted is charged to its account, to everybody and
  to its address, in windows that were open then. -/
  charged : forall attempt, attempt ∈ state.attempts ->
    limitKeys hashing attempt.username attempt.ip = .ok (attempt.reservation.map Prod.fst) ∧
      forall slot, slot ∈ attempt.reservation -> attempt.at_ < slot.2
  /-- While a window is open, its counter is there. -/
  open_ : forall attempt key deadline, attempt ∈ state.attempts ->
    (key, deadline) ∈ attempt.reservation -> state.clock < deadline ->
    ∃ row, state.store.loginLimits.find key = some row ∧ row.lockUntil = deadline
  /-- A counter is what was granted in its window less what was refunded in it. -/
  counters : forall key row, state.store.loginLimits.find key = some row ->
    charges state.refunded (key, row.lockUntil) ≤ charges state.granted (key, row.lockUntil) ∧
      row.failures = charges state.granted (key, row.lockUntil) -
        charges state.refunded (key, row.lockUntil)
  /-- The attempts granted and not refunded, in any window of a counter. -/
  account : forall key deadline, charges state.granted ((.account, key), deadline) ≤
    charges state.refunded ((.account, key), deadline) + config.maxLoginFailures
  address : forall key deadline, charges state.granted ((.ip, key), deadline) ≤
    charges state.refunded ((.ip, key), deadline) + 5 * config.maxLoginFailures
  everybody : forall key deadline, charges state.granted ((.global, key), deadline) ≤
    charges state.refunded ((.global, key), deadline) + 40 * config.maxLoginFailures
  /-- Windows follow each other, and a refund of an earlier one leaves the row alone. -/
  windows : forall reservation key deadline row, reservation ∈ state.granted ->
    (key, deadline) ∈ reservation -> state.store.loginLimits.find key = some row ->
    deadline ≤ row.lockUntil ∧
      (deadline < row.lockUntil ->
        (state.store.finishLogin reservation).loginLimits.find key = some row)
  /-- A refused call changes nothing. -/
  refused : forall elapsed username ip problem,
    state.store.reserveLogin hashing config username ip (state.clock + elapsed) = .error problem ->
      (step hashing config state (.reserve elapsed username ip)).store = state.store
  rows : state.store.loginLimits.size ≤ 10000

theorem Sound.bound (sound : Sound hashing config state) (slot : Slot) :
    charges state.granted slot ≤ charges state.refunded slot + config.limit slot.1.1 := by
  have counted := sound.balanced.bounded slot
  rw [charges_eq_count sound.once,
    charges_eq_count (fun other member => sound.once other (sound.returned other member))]
  exact counted

theorem Sound.counters (sound : Sound hashing config state) {key : LimitKey} {row : LimitRow}
    (found : state.store.loginLimits.find key = some row) :
    row.failures + charges state.refunded (key, row.lockUntil) =
      charges state.granted (key, row.lockUntil) := by
  have counted := sound.balanced.counted key row found
  rw [charges_eq_count sound.once,
    charges_eq_count (fun other member => sound.once other (sound.returned other member))]
  exact counted

/-- The slot of a reservation that names another window cannot name this one
too, for a reservation charges a key once. -/
theorem Sound.earlier (sound : Sound hashing config state) {reservation : LoginReservation}
    (member : reservation ∈ state.granted) {key : LimitKey} {deadline : Nat}
    (named : (key, deadline) ∈ reservation) {row : LimitRow}
    (found : state.store.loginLimits.find key = some row) (earlier : deadline < row.lockUntil) :
    (state.store.finishLogin reservation).loginLimits.find key = some row := by
  apply refundEach_other found
  intro current
  have same := (sound.once reservation member).deadline_eq named current
  omega

theorem Sound.exact (sound : Sound hashing config state) : Exact hashing config state where
  charged := fun attempt member => ⟨sound.charged attempt member, sound.ahead attempt member⟩
  open_ := by
    intro attempt key deadline member named ahead
    have listed : attempt.reservation ∈ state.granted := List.mem_map_of_mem member
    exact sound.balanced.open_ key deadline
      (List.mem_flatten.mpr ⟨attempt.reservation, listed, named⟩) ahead
  counters := by
    intro key row found
    have counted := sound.counters found
    omega
  account := fun key deadline => sound.bound ((.account, key), deadline)
  address := by
    intro key deadline
    have bound := sound.bound ((.ip, key), deadline)
    have limit : config.limit .ip ≤ config.maxLoginFailures * 5 := Nat.min_le_left _ _
    dsimp only at bound
    omega
  everybody := by
    intro key deadline
    have bound := sound.bound ((.global, key), deadline)
    have limit : config.limit .global ≤ config.maxLoginFailures * 40 := Nat.min_le_left _ _
    dsimp only at bound
    omega
  windows := by
    intro reservation key deadline row member named found
    have listed := List.mem_flatten.mpr ⟨reservation, member, named⟩
    exact ⟨sound.balanced.latest key deadline row listed found, sound.earlier member named found⟩
  refused := by
    intro elapsed username ip problem refusal
    rw [step_of_refused refusal]
  rows := sound.balanced.small

end LoginState

/-- After any calls, in any order and at any times that do not go back, every
counter is exactly the balance of what was granted and refunded. -/
theorem login_reservations_exact (hashing : LoginHashing) (config : RateLimitConfig) (store : Store)
    (events : List LoginEvent) :
    (Runs.run (LoginState.step hashing config) (LoginState.initial store) events).Exact
      hashing config :=
  (LoginState.run_sound (LoginState.sound_initial hashing config store) events).exact

/-! ## The limiter among the other operations -/

/-- A granted reservation changes nothing but the limiter's own table. -/
theorem reserveLogin_keepBooks (env : Environment) {hashing : LoginHashing}
    {config : RateLimitConfig} {username : Text} {ip : Option Text} {at_ : Nat}
    {store after : Store} {reservation : LoginReservation}
    (done : store.reserveLogin hashing config username ip at_ = .ok (reservation, after)) :
    ∃ books, StoreOp.apply env (.keepBooks books) store = .ok after := by
  rcases reserveLogin_ok done with ⟨_, rows, _, _, _, rfl⟩
  exact ⟨{ store with loginLimits := rows }, rfl⟩

theorem finishLogin_keepBooks (env : Environment) (reservation : LoginReservation) (store : Store) :
    ∃ books, StoreOp.apply env (.keepBooks books) store = .ok (store.finishLogin reservation) :=
  ⟨{ store with loginLimits := refundEach reservation store.loginLimits }, rfl⟩

end TealDrive
