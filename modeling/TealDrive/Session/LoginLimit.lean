import TealDrive.Library.History
import TealDrive.Library.Table
import TealDrive.Text

namespace TealDrive

/-!
# Login lockouts

Failed logins are counted by user name and address.  A key with too many recent
failures is limited until its last failure is old enough.  The table is bounded:
when it is full, old rows are swept and, if that is not enough, one row is evicted
that is not a lockout.  Where every row is one, the failure is not recorded.

Which row is evicted depends on the order in which a hash map yields its rows, so
every operation that may evict is given such an order.
-/

structure LoginRateLimitKey where
  username : Text
  ip : Option Text
deriving DecidableEq

inductive LoginRateLimitDecision where
  | allowed
  | limited
deriving DecidableEq

/-- The number of failures and the time of the last one. -/
abbrev FailureRow := Nat × Nat

/-- An order in which a hash map may yield its rows. -/
structure MapOrder (Row : Type) where
  arrange : List Row -> List Row
  perm : forall rows, (arrange rows).Perm rows

def MapOrder.stored (Row : Type) : MapOrder Row := ⟨fun rows => rows, fun _ => List.Perm.refl _⟩

structure InMemoryLoginRateLimiter where
  maxFailures : Nat
  lockoutDurationSeconds : Nat
  failures : Table LoginRateLimitKey FailureRow

def maxRateLimitEntries : Nat := 10000

/-- The last failure is longer ago than a lockout takes. -/
def lapsed (lastFailedAt lockout now : Nat) : Bool :=
  decide (now ≥ lastFailedAt) && decide (now - lastFailedAt > lockout)

namespace InMemoryLoginRateLimiter

variable (limiter : InMemoryLoginRateLimiter)

def withLockout (maxFailures lockout : Nat) : InMemoryLoginRateLimiter :=
  ⟨maxFailures, lockout, .empty⟩

def checkAt (key : LoginRateLimitKey) (maxFailures lockout now : Nat) : LoginRateLimitDecision :=
  match limiter.failures.find key with
  | none => .allowed
  | some (count, lastFailedAt) =>
      if lapsed lastFailedAt lockout now then .allowed
      else if count ≥ maxFailures then .limited
      else .allowed

def cleanup (now : Nat) : Nat × InMemoryLoginRateLimiter :=
  let kept := limiter.failures.filter (fun _ row =>
    decide (now - row.2 ≤ limiter.lockoutDurationSeconds))
  (limiter.failures.size - kept.size, { limiter with failures := kept })

/-- The key whose last failure is the oldest among those that are not locked out. -/
def oldestKey (order : MapOrder (LoginRateLimitKey × FailureRow)) : Option LoginRateLimitKey :=
  let open_ := (order.arrange limiter.failures.rows).filter (fun row =>
    decide (row.2.1 < limiter.maxFailures))
  (Table.foremost (fun first second => decide (first < second))
    (open_.map (fun row => (row.2.2, row.1)))).map Prod.snd

/-- Whether a failure of the key can be recorded, and the rows that are left. -/
def makeRoom (order : MapOrder (LoginRateLimitKey × FailureRow)) (key : LoginRateLimitKey)
    (now : Nat) : Bool × InMemoryLoginRateLimiter :=
  if limiter.failures.size < maxRateLimitEntries then (true, limiter)
  else
    let cleaned := (limiter.cleanup now).2
    if cleaned.failures.size < maxRateLimitEntries ∨ (cleaned.failures.find key).isSome then
      (true, cleaned)
    else
      match cleaned.oldestKey order with
      | none => (false, cleaned)
      | some oldest => (true, { cleaned with failures := cleaned.failures.erase oldest })

/-- The row of a key after one more failure.  The count is a `u32`. -/
def countFailure (row : Option FailureRow) (lockout now : Nat) : FailureRow :=
  let entry := row.getD (0, now)
  if lapsed entry.2 lockout now then (1, now) else ((entry.1 + 1) % 2 ^ 32, now)

def recordFailureAt (order : MapOrder (LoginRateLimitKey × FailureRow)) (key : LoginRateLimitKey)
    (lockout now : Nat) : LoginRateLimitDecision × InMemoryLoginRateLimiter :=
  match limiter.makeRoom order key now with
  | (false, roomy) => (.limited, roomy)
  | (true, roomy) =>
      let counted := { roomy with
        failures := roomy.failures.insert key
          (countFailure (roomy.failures.find key) lockout now) }
      (counted.checkAt key counted.maxFailures lockout now, counted)

def recordSuccess (key : LoginRateLimitKey) : InMemoryLoginRateLimiter :=
  { limiter with failures := limiter.failures.erase key }

end InMemoryLoginRateLimiter

/-! ## The machine -/

inductive LimiterOp where
  | recordFailureAt (order : MapOrder (LoginRateLimitKey × FailureRow)) (key : LoginRateLimitKey)
      (now : Nat)
  | recordSuccess (key : LoginRateLimitKey)
  | checkAt (key : LoginRateLimitKey) (now : Nat)
  | cleanup (now : Nat)

def LimiterOp.time? : LimiterOp -> Option Nat
  | .recordFailureAt _ _ now | .checkAt _ now | .cleanup now => some now
  | .recordSuccess _ => none

structure LimiterSystem where
  limiter : InMemoryLoginRateLimiter
  /-- The latest time that was read. -/
  clock : Nat
  /-- The failures that were recorded, the newest first. -/
  recorded : List (LoginRateLimitKey × Nat)

namespace LimiterSystem

def initial (maxFailures lockout : Nat) : LimiterSystem := ⟨.withLockout maxFailures lockout, 0, []⟩

/-- All operations use the limits of the limiter. -/
def step (system : LimiterSystem) (op : LimiterOp) : LimiterSystem where
  limiter :=
    match op with
    | .recordFailureAt order key now =>
        (system.limiter.recordFailureAt order key system.limiter.lockoutDurationSeconds now).2
    | .recordSuccess key => system.limiter.recordSuccess key
    | .checkAt _ _ => system.limiter
    | .cleanup now => (system.limiter.cleanup now).2
  clock := op.time?.getD system.clock
  recorded :=
    match op with
    | .recordFailureAt order key now =>
        if (system.limiter.makeRoom order key now).1 then (key, now) :: system.recorded
        else system.recorded
    | _ => system.recorded

/-- What `check_at` answers with the limits of the limiter. -/
def check (system : LimiterSystem) (key : LoginRateLimitKey) (now : Nat) :
    LoginRateLimitDecision :=
  system.limiter.checkAt key system.limiter.maxFailures system.limiter.lockoutDurationSeconds now

/-- The clock does not go back. -/
def Timely (system : LimiterSystem) (op : LimiterOp) : Prop :=
  system.clock ≤ op.time?.getD system.clock

instance (system : LimiterSystem) (op : LimiterOp) : Decidable (Timely system op) :=
  inferInstanceAs (Decidable (_ ≤ _))

/-- The number of recorded failures of a key. -/
def failuresOf (key : LoginRateLimitKey) (recorded : List (LoginRateLimitKey × Nat)) : Nat :=
  recorded.countP (fun failure => failure.1 == key)

/-- The time of the last recorded failure of a key. -/
def lastFailure (key : LoginRateLimitKey) (recorded : List (LoginRateLimitKey × Nat)) :
    Option Nat :=
  (recorded.find? (fun failure => failure.1 == key)).map Prod.snd

end LimiterSystem

end TealDrive
