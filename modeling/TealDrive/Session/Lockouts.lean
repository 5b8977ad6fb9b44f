import TealDrive.Session.LoginLimit

namespace TealDrive

open History

/-!
# Lockouts hold

A lockout is a row with enough failures whose last one is not too long ago.  The
sweep keeps it for its age, the eviction for its count, and the failures of the key
itself for both, as long as the count does not wrap around.  What the rows say about
the history of their keys is an invariant of its own.
-/

namespace InMemoryLoginRateLimiter

variable {limiter : InMemoryLoginRateLimiter} {key : LoginRateLimitKey} {count last : Nat}

theorem lapsed_iff (last lockout now : Nat) :
    lapsed last lockout now = true ↔ last ≤ now ∧ last + lockout < now := by
  unfold lapsed
  rw [Bool.and_eq_true, decide_eq_true_eq, decide_eq_true_eq]
  omega

theorem checkAt_limited {maxFailures lockout now : Nat} :
    limiter.checkAt key maxFailures lockout now = .limited ↔
      ∃ count last, limiter.failures.find key = some (count, last) ∧ maxFailures ≤ count ∧
        lapsed last lockout now = false := by
  unfold checkAt
  cases stored : limiter.failures.find key with
  | none => simp
  | some row =>
      rcases row with ⟨count, last⟩
      constructor
      · intro limited
        dsimp only at limited
        split at limited
        · cases limited
        · next fresh =>
            split at limited
            · next enough => exact ⟨count, last, rfl, enough, by simpa using fresh⟩
            · cases limited
      · rintro ⟨_, _, same, enough, fresh⟩
        cases same
        dsimp only
        rw [fresh, if_neg Bool.false_ne_true, if_pos enough]

/-- The row that is evicted is stored, and it is not a lockout. -/
theorem oldestKey_spec {order : MapOrder (LoginRateLimitKey × FailureRow)}
    {oldest : LoginRateLimitKey} (chosen : limiter.oldestKey order = some oldest) :
    ∃ count last, limiter.failures.find oldest = some (count, last) ∧
      count < limiter.maxFailures := by
  rcases Option.map_eq_some_iff.mp chosen with ⟨best, first, rfl⟩
  rcases List.mem_map.mp (Table.mem_of_foremost first) with ⟨row, candidate, rfl⟩
  rcases List.mem_filter.mp candidate with ⟨yielded, open_⟩
  have stored := (order.perm limiter.failures.rows).mem_iff.mp yielded
  exact ⟨row.2.1, row.2.2, Table.find_eq_some_iff.mpr stored, of_decide_eq_true open_⟩

/-- What room is made of: rows are swept for their age, and at most one is evicted. -/
structure Roomy (limiter : InMemoryLoginRateLimiter) (key : LoginRateLimitKey) (now : Nat)
    (room : Bool × InMemoryLoginRateLimiter) : Prop where
  maxFailures : room.2.maxFailures = limiter.maxFailures
  lockout : room.2.lockoutDurationSeconds = limiter.lockoutDurationSeconds
  fewer : forall other row, room.2.failures.find other = some row ->
    limiter.failures.find other = some row
  locked : forall other count last, limiter.failures.find other = some (count, last) ->
    limiter.maxFailures ≤ count -> now ≤ last + limiter.lockoutDurationSeconds ->
    room.2.failures.find other = some (count, last)
  size : limiter.failures.size ≤ maxRateLimitEntries -> room.2.failures.size ≤ maxRateLimitEntries
  fits : room.1 = true -> limiter.failures.size ≤ maxRateLimitEntries ->
    room.2.failures.find key = none -> room.2.failures.size < maxRateLimitEntries
  refuses : room.1 = false -> room.2.failures.find key = none

theorem size_filter_le (failures : Table LoginRateLimitKey FailureRow)
    (keep : LoginRateLimitKey -> FailureRow -> Bool) : (failures.filter keep).size ≤ failures.size := by
  rw [Table.size_eq_count, Table.size_eq_count]
  exact Table.count_filter_le failures keep _

theorem size_erase {failures : Table LoginRateLimitKey FailureRow} {row : FailureRow}
    (found : failures.find key = some row) : (failures.erase key).size + 1 = failures.size := by
  rw [Table.size_eq_count, Table.size_eq_count, Table.count_eq_total, Table.count_eq_total]
  exact Table.total_erase _ found

theorem find_cleanup (now : Nat) :
    (limiter.cleanup now).2.failures.find key = (limiter.failures.find key).filter (fun row =>
      decide (now - row.2 ≤ limiter.lockoutDurationSeconds)) :=
  Table.find_filter limiter.failures _ key

theorem cleanup_fewer {now : Nat} {row : FailureRow}
    (found : (limiter.cleanup now).2.failures.find key = some row) :
    limiter.failures.find key = some row := by
  rw [find_cleanup, Option.filter_eq_some_iff] at found
  exact found.1

theorem cleanup_locked {now : Nat} (found : limiter.failures.find key = some (count, last))
    (recent : now ≤ last + limiter.lockoutDurationSeconds) :
    (limiter.cleanup now).2.failures.find key = some (count, last) := by
  rw [find_cleanup, found, Option.filter_some, if_pos]
  exact decide_eq_true (Nat.sub_le_iff_le_add'.mpr recent)

theorem makeRoom_roomy (order : MapOrder (LoginRateLimitKey × FailureRow))
    (key : LoginRateLimitKey) (now : Nat) :
    Roomy limiter key now (limiter.makeRoom order key now) := by
  have swept : (limiter.cleanup now).2.failures.size ≤ limiter.failures.size :=
    size_filter_le limiter.failures _
  unfold makeRoom
  split
  · next small =>
      exact ⟨rfl, rfl, fun _ _ found => found, fun _ _ _ found _ _ => found, fun full => full,
        fun _ _ _ => small, (fun impossible => by cases impossible)⟩
  · next full =>
      dsimp only
      split
      · next room =>
          refine ⟨rfl, rfl, fun _ _ => cleanup_fewer, fun _ _ _ found _ => cleanup_locked found,
            Nat.le_trans swept, ?_, (fun impossible => by cases impossible)⟩
          intro _ _ absent
          rcases room with small | present
          · exact small
          · rw [absent] at present
            cases present
      · next crowded =>
          rw [not_or] at crowded
          have absent : (limiter.cleanup now).2.failures.find key = none := by
            simpa using crowded.2
          cases chosen : (limiter.cleanup now).2.oldestKey order with
          | none =>
              exact ⟨rfl, rfl, fun _ _ => cleanup_fewer,
                fun _ _ _ found _ => cleanup_locked found, Nat.le_trans swept,
                (fun impossible => by cases impossible), fun _ => absent⟩
          | some oldest =>
              rcases oldestKey_spec chosen with ⟨few, when_, stored, open_⟩
              have smaller := size_erase stored
              refine ⟨rfl, rfl, ?_, ?_, ?_, ?_, (fun impossible => by cases impossible)⟩
              · intro other row found
                exact cleanup_fewer (Table.of_find_erase found).2
              · intro other count last found enough recent
                have kept := cleanup_locked found recent
                have different : other ≠ oldest := by
                  rintro rfl
                  rw [stored] at kept
                  cases kept
                  exact absurd enough (Nat.not_le.mpr open_)
                dsimp only
                rw [Table.find_erase_of_ne different, kept]
              · intro bounded
                dsimp only
                omega
              · intro _ bounded _
                dsimp only
                omega

theorem countFailure_time (row : Option FailureRow) (lockout now : Nat) :
    (countFailure row lockout now).2 = now := by
  unfold countFailure
  dsimp only
  split <;> rfl

theorem countFailure_le (row : Option FailureRow) (lockout now : Nat) :
    (countFailure row lockout now).1 ≤ (row.getD (0, now)).1 + 1 := by
  unfold countFailure
  dsimp only
  split
  · exact Nat.le_add_left _ _
  · exact Nat.mod_le _ _

/-- A failure within the lockout is counted. -/
theorem countFailure_recent {lockout now : Nat} (recent : now ≤ last + lockout)
    (few : count + 1 < 2 ^ 32) : countFailure (some (count, last)) lockout now = (count + 1, now) := by
  have fresh : lapsed last lockout now = false := by
    rw [← Bool.not_eq_true, lapsed_iff]
    omega
  unfold countFailure
  dsimp only [Option.getD_some]
  rw [fresh, if_neg Bool.false_ne_true, Nat.mod_eq_of_lt few]

end InMemoryLoginRateLimiter

/-! ## What the rows say -/

namespace LimiterSystem

variable {system : LimiterSystem}

/-- Every row is the history of its key since it was last removed. -/
structure Recorded (system : LimiterSystem) : Prop where
  size : system.limiter.failures.size ≤ maxRateLimitEntries
  last : forall key count last, system.limiter.failures.find key = some (count, last) ->
    last ≤ system.clock ∧ lastFailure key system.recorded = some last
  count : forall key count last, system.limiter.failures.find key = some (count, last) ->
    count ≤ failuresOf key system.recorded

theorem failuresOf_cons (key : LoginRateLimitKey) (failure : LoginRateLimitKey × Nat)
    (recorded : List (LoginRateLimitKey × Nat)) :
    failuresOf key (failure :: recorded) =
      failuresOf key recorded + if failure.1 == key then 1 else 0 :=
  List.countP_cons

theorem lastFailure_cons_self (key : LoginRateLimitKey) (now : Nat)
    (recorded : List (LoginRateLimitKey × Nat)) :
    lastFailure key ((key, now) :: recorded) = some now := by
  unfold lastFailure
  rw [List.find?_cons_of_pos (by exact beq_self_eq_true key)]
  rfl

theorem lastFailure_cons_of_ne {key other : LoginRateLimitKey} (different : other ≠ key) (now : Nat)
    (recorded : List (LoginRateLimitKey × Nat)) :
    lastFailure key ((other, now) :: recorded) = lastFailure key recorded := by
  unfold lastFailure
  rw [List.find?_cons_of_neg (by simpa using different)]

namespace Recorded

theorem initial (maxFailures lockout : Nat) : Recorded (.initial maxFailures lockout) where
  size := Nat.zero_le _
  last := fun _ _ _ impossible => by cases impossible
  count := fun _ _ _ impossible => by cases impossible

/-- Rows are removed, and no failure is recorded. -/
theorem shrink (kept : Recorded system) {limiter : InMemoryLoginRateLimiter} {now : Nat}
    (timely : system.clock ≤ now) (size : limiter.failures.size ≤ maxRateLimitEntries)
    (fewer : forall key row, limiter.failures.find key = some row ->
      system.limiter.failures.find key = some row) :
    Recorded ⟨limiter, now, system.recorded⟩ := by
  refine ⟨size, ?_, fun key count last found => kept.count key count last (fewer _ _ found)⟩
  intro key count last found
  rcases kept.last key count last (fewer _ _ found) with ⟨before, latest⟩
  exact ⟨Nat.le_trans before timely, latest⟩

/-- A failure is recorded where there is room. -/
theorem record (kept : Recorded system) {order : MapOrder (LoginRateLimitKey × FailureRow)}
    {key : LoginRateLimitKey} {now : Nat} {roomy : InMemoryLoginRateLimiter} {lockout : Nat}
    (timely : system.clock ≤ now) (made : system.limiter.makeRoom order key now = (true, roomy)) :
    Recorded ⟨{ roomy with
        failures := roomy.failures.insert key
          (InMemoryLoginRateLimiter.countFailure (roomy.failures.find key) lockout now) }, now,
      (key, now) :: system.recorded⟩ := by
  have room := @InMemoryLoginRateLimiter.makeRoom_roomy system.limiter order key now
  rw [made] at room
  constructor
  case size =>
    cases stored : roomy.failures.find key with
    | none =>
        dsimp only
        rw [Table.size_insert_of_absent _ stored]
        exact room.fits rfl kept.size stored
    | some row =>
        dsimp only
        rw [Table.size_insert_of_found _ stored]
        exact room.size kept.size
  case last =>
    intro other count last found
    by_cases same : other = key
    · subst same
      rw [Table.find_insert_self, Option.some.injEq] at found
      have when_ := congrArg Prod.snd found
      rw [InMemoryLoginRateLimiter.countFailure_time] at when_
      dsimp only at when_
      subst when_
      exact ⟨Nat.le_refl _, lastFailure_cons_self _ _ _⟩
    · rw [Table.find_insert_of_ne _ same] at found
      rcases kept.last other count last (room.fewer _ _ found) with ⟨before, latest⟩
      refine ⟨Nat.le_trans before timely, ?_⟩
      rw [lastFailure_cons_of_ne (fun equal => same equal.symm)]
      exact latest
  case count =>
    intro other count last found
    by_cases same : other = key
    · subst same
      rw [Table.find_insert_self, Option.some.injEq] at found
      have bounded := InMemoryLoginRateLimiter.countFailure_le (roomy.failures.find other) lockout now
      rw [found] at bounded
      refine Nat.le_trans bounded ?_
      rw [failuresOf_cons, if_pos (beq_self_eq_true other)]
      apply Nat.succ_le_succ
      cases stored : roomy.failures.find other with
      | none => exact Nat.zero_le _
      | some row => exact kept.count other row.1 row.2 (room.fewer _ _ stored)
    · rw [Table.find_insert_of_ne _ same] at found
      refine Nat.le_trans (kept.count other count last (room.fewer _ _ found)) ?_
      rw [failuresOf_cons]
      exact Nat.le_add_right _ _

end Recorded

/-- A failure is recorded, or there is no room for it. -/
theorem step_recordFailureAt (system : LimiterSystem)
    (order : MapOrder (LoginRateLimitKey × FailureRow)) (key : LoginRateLimitKey) (now : Nat) :
    (∃ roomy, system.limiter.makeRoom order key now = (false, roomy) ∧
        system.step (.recordFailureAt order key now) = ⟨roomy, now, system.recorded⟩) ∨
      ∃ roomy, system.limiter.makeRoom order key now = (true, roomy) ∧
        system.step (.recordFailureAt order key now) =
          ⟨{ roomy with
              failures := roomy.failures.insert key
                (InMemoryLoginRateLimiter.countFailure (roomy.failures.find key)
                  system.limiter.lockoutDurationSeconds now) },
            now, (key, now) :: system.recorded⟩ := by
  unfold step InMemoryLoginRateLimiter.recordFailureAt
  rcases made : system.limiter.makeRoom order key now with ⟨fits, roomy⟩
  cases fits with
  | false => exact Or.inl ⟨roomy, rfl, by simp only [made, LimiterOp.time?]; rfl⟩
  | true => exact Or.inr ⟨roomy, rfl, by simp only [made, LimiterOp.time?]; rfl⟩

theorem Recorded.step (kept : Recorded system) {op : LimiterOp} (timely : system.Timely op) :
    Recorded (system.step op) := by
  cases op with
  | recordFailureAt order key now =>
      rcases system.step_recordFailureAt order key now with
        ⟨roomy, made, stepped⟩ | ⟨roomy, made, stepped⟩
      · have room := @InMemoryLoginRateLimiter.makeRoom_roomy system.limiter
          order key now
        rw [made] at room
        rw [stepped]
        exact kept.shrink timely (room.size kept.size) room.fewer
      · rw [stepped]
        exact kept.record timely made
  | recordSuccess key =>
      refine kept.shrink timely ?_ (fun other row found => (Table.of_find_erase found).2)
      exact Nat.le_trans (InMemoryLoginRateLimiter.size_filter_le _ _) kept.size
  | checkAt key now => exact kept.shrink timely kept.size (fun _ _ found => found)
  | cleanup now =>
      refine kept.shrink timely ?_ (fun _ _ => InMemoryLoginRateLimiter.cleanup_fewer)
      exact Nat.le_trans (InMemoryLoginRateLimiter.size_filter_le _ _) kept.size

/-! ## Lockouts -/

/-- The end of a lockout, after an operation.  Failures during the lockout extend it. -/
def extend (lockout : Nat) (key : LoginRateLimitKey) (until_ : Nat) : LimiterOp -> Nat
  | .recordFailureAt _ other now => if other = key ∧ now ≤ until_ then now + lockout else until_
  | _ => until_

/-- The row of the key is a lockout until the given time. -/
def Locked (system : LimiterSystem) (key : LoginRateLimitKey) (until_ : Nat) : Prop :=
  ∃ count last, system.limiter.failures.find key = some (count, last) ∧
    system.limiter.maxFailures ≤ count ∧ last + system.limiter.lockoutDurationSeconds = until_

theorem step_limits (system : LimiterSystem) (op : LimiterOp) :
    (system.step op).limiter.maxFailures = system.limiter.maxFailures ∧
      (system.step op).limiter.lockoutDurationSeconds = system.limiter.lockoutDurationSeconds := by
  cases op with
  | recordFailureAt order key now =>
      have room := @InMemoryLoginRateLimiter.makeRoom_roomy system.limiter order key now
      rcases system.step_recordFailureAt order key now with
        ⟨roomy, made, stepped⟩ | ⟨roomy, made, stepped⟩
      all_goals
        rw [made] at room
        rw [stepped]
        exact ⟨room.maxFailures, room.lockout⟩
  | _ => exact ⟨rfl, rfl⟩

theorem failuresOf_step_le (system : LimiterSystem) (key : LoginRateLimitKey) (op : LimiterOp) :
    failuresOf key system.recorded ≤ failuresOf key (system.step op).recorded := by
  cases op with
  | recordFailureAt order other now =>
      rcases system.step_recordFailureAt order other now with
        ⟨roomy, _, stepped⟩ | ⟨roomy, _, stepped⟩
      · rw [stepped]
      · rw [stepped, failuresOf_cons]
        exact Nat.le_add_right _ _
  | _ => exact Nat.le_refl _

theorem failuresOf_run_le (system : LimiterSystem) (key : LoginRateLimitKey)
    (operations : List LimiterOp) :
    failuresOf key system.recorded ≤ failuresOf key (Runs.run step system operations).recorded := by
  induction operations generalizing system with
  | nil => exact Nat.le_refl _
  | cons op rest ih => exact Nat.le_trans (system.failuresOf_step_le key op) (ih (system.step op))

/-- A lockout that is over is not extended. -/
theorem extend_over {system : LimiterSystem} {op : LimiterOp} {lockout until_ : Nat}
    {key : LoginRateLimitKey} (passed : until_ < (system.step op).clock) :
    extend lockout key until_ op = until_ := by
  cases op with
  | recordFailureAt order other now =>
      apply if_neg
      intro within
      exact absurd within.2 (Nat.not_le.mpr passed)
  | _ => rfl

namespace Locked

variable {key : LoginRateLimitKey} {until_ : Nat}

/-- A failure recorded during a lockout. -/
theorem recordFailureAt (kept : Recorded system) (locked : Locked system key until_)
    (order : MapOrder (LoginRateLimitKey × FailureRow)) (other : LoginRateLimitKey) {now : Nat}
    (within : now ≤ until_)
    (few : failuresOf key (system.step (.recordFailureAt order other now)).recorded < 2 ^ 32) :
    Locked (system.step (.recordFailureAt order other now)) key
      (extend system.limiter.lockoutDurationSeconds key until_ (.recordFailureAt order other now)) := by
  rcases locked with ⟨count, last, found, enough, rfl⟩
  have room := @InMemoryLoginRateLimiter.makeRoom_roomy system.limiter order other now
  have still := room.locked key count last found enough within
  dsimp only [extend]
  rcases system.step_recordFailureAt order other now with
    ⟨roomy, made, stepped⟩ | ⟨roomy, made, stepped⟩
  · rw [made] at room still
    have different : other ≠ key := by
      rintro rfl
      rw [room.refuses rfl] at still
      cases still
    rw [stepped, if_neg (fun both => different both.1)]
    exact ⟨count, last, still, room.maxFailures.symm ▸ enough, congrArg _ room.lockout⟩
  · rw [made] at room still
    rw [stepped] at few ⊢
    by_cases same : other = key
    · subst same
      have bounded : count + 1 < 2 ^ 32 := by
        have counted := kept.count other count last found
        rw [failuresOf_cons, if_pos (beq_self_eq_true other)] at few
        exact Nat.lt_of_le_of_lt (Nat.succ_le_succ counted) few
      rw [if_pos ⟨rfl, within⟩]
      refine ⟨count + 1, now, ?_, ?_, congrArg _ room.lockout⟩
      · rw [Table.find_insert_self, still,
          InMemoryLoginRateLimiter.countFailure_recent within bounded]
      · exact Nat.le_succ_of_le (room.maxFailures.symm ▸ enough)
    · rw [if_neg (fun both => same both.1)]
      refine ⟨count, last, ?_, room.maxFailures.symm ▸ enough, congrArg _ room.lockout⟩
      rw [Table.find_insert_of_ne _ (fun equal => same equal.symm)]
      exact still

theorem step (kept : Recorded system) (locked : Locked system key until_) {op : LimiterOp}
    (within : (system.step op).clock ≤ until_) (unlifted : op ≠ .recordSuccess key)
    (few : failuresOf key (system.step op).recorded < 2 ^ 32) :
    Locked (system.step op) key
      (extend system.limiter.lockoutDurationSeconds key until_ op) := by
  cases op with
  | recordFailureAt order other now => exact locked.recordFailureAt kept order other within few
  | recordSuccess other =>
      rcases locked with ⟨count, last, found, enough, ends⟩
      have different : key ≠ other := by
        rintro rfl
        exact unlifted rfl
      exact ⟨count, last, (Table.find_erase_of_ne different).trans found, enough, ends⟩
  | checkAt other now => exact locked
  | cleanup now =>
      rcases locked with ⟨count, last, found, enough, rfl⟩
      exact ⟨count, last, InMemoryLoginRateLimiter.cleanup_locked found within, enough, rfl⟩

/-- Failures during a lockout do not shorten it. -/
theorem le_extend (kept : Recorded system) (locked : Locked system key until_) {op : LimiterOp}
    (timely : system.Timely op) :
    until_ ≤ extend system.limiter.lockoutDurationSeconds key until_ op := by
  rcases locked with ⟨count, last, found, _, rfl⟩
  have before := (kept.last key count last found).1
  cases op with
  | recordFailureAt order other now =>
      dsimp only [extend]
      split
      · exact Nat.add_le_add_right (Nat.le_trans before timely) _
      · exact Nat.le_refl _
  | _ => exact Nat.le_refl _

end Locked

/-- A lockout holds until it is over. -/
theorem locked_run {key : LoginRateLimitKey} {until_ : Nat} {operations : List LimiterOp}
    (kept : Recorded system) (each : Runs.Each step Timely system operations)
    (few : failuresOf key (Runs.run step system operations).recorded < 2 ^ 32)
    (unlifted : forall op, op ∈ operations -> op ≠ .recordSuccess key)
    (start : until_ < system.clock ∨ Locked system key until_) :
    until_ ≤ operations.foldl (extend system.limiter.lockoutDurationSeconds key) until_ ∧
      (operations.foldl (extend system.limiter.lockoutDurationSeconds key) until_ <
          (Runs.run step system operations).clock ∨
        Locked (Runs.run step system operations) key
          (operations.foldl (extend system.limiter.lockoutDurationSeconds key) until_)) := by
  induction operations generalizing system until_ with
  | nil => exact ⟨Nat.le_refl _, start⟩
  | cons op rest ih =>
      rcases each with ⟨timely, later⟩
      have others := fun op member => unlifted op (List.mem_cons_of_mem _ member)
      have fewer := Nat.lt_of_le_of_lt ((system.step op).failuresOf_run_le key rest) few
      have next := @ih (system.step op)
        (extend system.limiter.lockoutDurationSeconds key until_ op)
        (kept.step timely) later few others
      rw [(system.step_limits op).2] at next
      by_cases within : (system.step op).clock ≤ until_
      · have locked : Locked system key until_ := by
          rcases start with passed | locked
          · exact absurd (Nat.le_trans timely within) (Nat.not_le.mpr passed)
          · exact locked
        have held := next (Or.inr (locked.step kept within (unlifted op List.mem_cons_self) fewer))
        exact ⟨Nat.le_trans (locked.le_extend kept timely) held.1, held.2⟩
      · have passed := Nat.not_le.mp within
        rw [extend_over passed] at next
        rw [List.foldl_cons, extend_over passed]
        exact next (Or.inl passed)

/-- A key that is limited has a recorded failure, and its row is a lockout. -/
theorem locked_of_limited {key : LoginRateLimitKey} {now : Nat} (kept : Recorded system)
    (limited : system.check key now = .limited) :
    ∃ last, lastFailure key system.recorded = some last ∧
      Locked system key (last + system.limiter.lockoutDurationSeconds) := by
  rcases InMemoryLoginRateLimiter.checkAt_limited.mp limited with ⟨count, last, found, enough, _⟩
  exact ⟨last, (kept.last key count last found).2, count, last, found, enough, rfl⟩

theorem Locked.limited {key : LoginRateLimitKey} {until_ now : Nat}
    (locked : Locked system key until_) (within : now ≤ until_) :
    system.check key now = .limited := by
  rcases locked with ⟨count, last, found, enough, rfl⟩
  refine InMemoryLoginRateLimiter.checkAt_limited.mpr ⟨count, last, found, enough, ?_⟩
  rw [← Bool.not_eq_true, InMemoryLoginRateLimiter.lapsed_iff]
  exact fun both => absurd within (Nat.not_le.mpr both.2)

/-- The machine after a list of operations. -/
def reached (maxFailures lockout : Nat) (operations : List LimiterOp) : LimiterSystem :=
  Runs.run step (initial maxFailures lockout) operations

theorem reached_append (maxFailures lockout : Nat) (before after : List LimiterOp) :
    reached maxFailures lockout (before ++ after) =
      Runs.run step (reached maxFailures lockout before) after :=
  Runs.run_append _ before after

theorem reached_lockout (maxFailures lockout : Nat) (operations : List LimiterOp) :
    (reached maxFailures lockout operations).limiter.lockoutDurationSeconds = lockout :=
  @Runs.invariant _ _ step (fun system => system.limiter.lockoutDurationSeconds = lockout)
    (fun system op same => (system.step_limits op).2.trans same) _ rfl operations

end LimiterSystem

open LimiterSystem in
/-- However many attempts follow for other keys, a locked key stays locked for as
long as it would have been without them, and the table keeps within its size. -/
theorem flooding_lifts_no_lockout (maxFailures lockout : Nat) (before after : List LimiterOp)
    (key : LoginRateLimitKey) (now : Nat)
    (timely : Runs.Each step Timely (initial maxFailures lockout)
      (before ++ .checkAt key now :: after)) :
    (reached maxFailures lockout (before ++ .checkAt key now :: after)).limiter.failures.size ≤
        maxRateLimitEntries ∧
      (failuresOf key (reached maxFailures lockout
          (before ++ .checkAt key now :: after)).recorded < 2 ^ 32 ->
        (reached maxFailures lockout before).check key now = .limited ->
        (forall op, op ∈ after -> op ≠ .recordSuccess key) ->
        ∃ last, lastFailure key (reached maxFailures lockout before).recorded = some last ∧
          last + lockout ≤ after.foldl (extend lockout key) (last + lockout) ∧
          forall later,
            (reached maxFailures lockout (before ++ .checkAt key now :: after)).clock ≤ later ->
            later ≤ after.foldl (extend lockout key) (last + lockout) ->
            (reached maxFailures lockout (before ++ .checkAt key now :: after)).check key later =
              .limited) := by
  rcases Runs.each_append.mp timely with ⟨early, late⟩
  have kept : Recorded (reached maxFailures lockout before) :=
    Runs.invariant_each Recorded (fun _ _ timely kept => kept.step timely)
      (.initial maxFailures lockout) early
  rw [reached_append]
  constructor
  · exact (Runs.invariant_each Recorded (fun _ _ timely kept => kept.step timely) kept late).size
  · intro few limited unlifted
    rcases locked_of_limited kept limited with ⟨last, latest, locked⟩
    have held := locked_run kept late few
      (fun op member => by
        rcases List.mem_cons.mp member with rfl | other
        · exact fun impossible => by cases impossible
        · exact unlifted op other) (Or.inr locked)
    rw [reached_lockout] at held
    refine ⟨last, latest, held.1, ?_⟩
    intro later after within
    rcases held.2 with passed | still
    · exact absurd (Nat.le_trans after within) (Nat.not_le.mpr passed)
    · exact still.limited within

namespace OneLockout

def victim : LoginRateLimitKey := ⟨"victim".toList, none⟩

def fail (username : String) (now : Nat) : LimiterOp :=
  .recordFailureAt (.stored _) ⟨username.toList, none⟩ now

def before : List LimiterOp := [fail "victim" 10, fail "victim" 20]

def after : List LimiterOp := [fail "flood" 30, .cleanup 40, fail "victim" 50, .recordSuccess ⟨[], none⟩]

end OneLockout

open LimiterSystem OneLockout in
theorem flooding_lifts_no_lockout_victim :
    (reached 2 300 (before ++ .checkAt victim 25 :: OneLockout.after)).check victim 350 =
      .limited := by
  have held := flooding_lifts_no_lockout 2 300 before OneLockout.after victim 25 (by decide)
  rcases held.2 (by decide) (by decide) (by
    intro op member
    simp only [OneLockout.after, fail, List.mem_cons, List.not_mem_nil, or_false] at member
    rcases member with rfl | rfl | rfl | rfl
    all_goals
      intro same
      cases same) with ⟨last, latest, _, limited⟩
  cases latest
  exact limited 350 (by decide) (by decide)

end TealDrive
