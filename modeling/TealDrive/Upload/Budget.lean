import TealDrive.Accounts.Schema
import TealDrive.Library.Runs
import TealDrive.Library.Sums

namespace TealDrive

/-!
# The staging budget

Server processes of one operating-system user share a temporary directory.  An
upload first takes a `StageReservation` from the counter of its own process
and then a `DiskReservation` from a ledger of lease files that all processes
share.  A lease counts for the amount written in it as long as its creator
holds its lock.  When the creator dies, the system drops the lock and only the
staging file that was left behind counts.

The ledger is only written by the process that holds the lock of the file
`lock`.  The state therefore records at most one such section, together with
the call that is in it and the place it has reached.  Everything else, the
staging files in particular, changes at any time: each operation below is one
step between which all other processes may act.  What a system call may do to
a process, to fail or to list a file that has just been deleted, is an argument
of the operation.

The scan tries the lock of every lease and gives it up again before the next
one.  Nobody else tries these locks meanwhile, so the trial is not recorded in
the lease.
-/

namespace Budget

/-- `u32::MAX`. -/
def u32Max : Nat := 2 ^ 32 - 1

/-- `max_staging_bytes` and `max_staging_transfers`. -/
structure Limits where
  maximum : Nat
  maxTransfers : Nat

/-! ## The counter of a process -/

structure StageUsage where
  bytes : Nat
  transfers : Nat
deriving DecidableEq

/-- `StageUsage::default`. -/
def StageUsage.zero : StageUsage := ⟨0, 0⟩

/-- `reserve_staging`, whose only refusal is `DiskFull`. -/
def reserveStaging (limits : Limits) (held : StageUsage) (bytes : Nat) : Option StageUsage :=
  if held.bytes + bytes ≤ u64Max then
    if held.bytes + bytes > limits.maximum ∨ held.transfers ≥ limits.maxTransfers then none
    else some { bytes := held.bytes + bytes, transfers := held.transfers + 1 }
  else none

/-- `StageReservation::drop`, with its saturating subtractions. -/
def StageUsage.drop (value : StageUsage) (bytes : Nat) : StageUsage where
  bytes := value.bytes - bytes
  transfers := value.transfers - 1

/-! ## The ledger -/

/-- A lease file.  `reserved` is the amount its creator asked for, `content`
the number its text spells once that is written, and `holder` the call whose
open file holds the lock. -/
structure Lease where
  reserved : Nat
  content : Option Nat
  holder : Option Nat
deriving DecidableEq

def Lease.live (lease : Lease) : Bool :=
  lease.holder.isSome

/-- The lock of the lease is gone. -/
def Lease.abandon (lease : Lease) : Lease :=
  { lease with holder := none }

/-- The variables `total`, `count` and `accounted` of the scan. -/
structure Ledger where
  total : Nat
  count : Nat
  accounted : List Uuid
deriving DecidableEq

def Ledger.zero : Ledger := ⟨0, 0, []⟩

/-- The two checked additions for one more transfer. -/
def Ledger.charge (ledger : Ledger) (charged : Nat) : Option Ledger :=
  if ledger.total + charged ≤ u64Max ∧ ledger.count + 1 ≤ u32Max then
    some { ledger with total := ledger.total + charged, count := ledger.count + 1 }
  else none

/-- How far a call got while it holds the lock of the ledger.  The lists are
the directory entries still to come. -/
inductive Place where
  | opened
  | leases (todo : List Uuid) (ledger : Ledger)
  | probed (id : Uuid) (abandoned : Bool) (todo : List Uuid) (ledger : Ledger)
  | files (todo : List Uuid) (ledger : Ledger)
  | judged
  | created
  | flocked
  | recorded
  | discarding
deriving DecidableEq

/-- How far the call is as a whole.  From `admitted` to `refused` the permit is
a local variable of `upload_begin_request`; in `held` its clones are with the
upload; in `dropping` the last clone is gone and `DiskReservation::drop` runs. -/
inductive Phase where
  | admitted
  | reserving
  | refused
  | held
  | dropping
  | dropped
deriving DecidableEq

/-- A `StageReservation` and the `reserve` call that fills it. -/
structure Call where
  process : Nat
  id : Uuid
  bytes : Nat
  clones : Nat
  phase : Phase
deriving DecidableEq

/-- The shared directory, the lock of the ledger with the section of its
holder, the calls and counters of the processes that run, and the permits
dropped so far. -/
structure State where
  leases : Table Uuid Lease
  files : Table Uuid Nat
  global : Option (Nat × Place)
  calls : Table Nat Call
  usage : Nat -> StageUsage
  released : List Nat
  next : Nat

namespace State

/-- An empty directory and no process that has reserved anything. -/
def initial : State where
  leases := Table.empty
  files := Table.empty
  global := none
  calls := Table.empty
  usage := fun _ => StageUsage.zero
  released := []
  next := 0

def size (state : State) (id : Uuid) : Nat :=
  (state.files.find id).getD 0

/-- There is a lease whose lock is held. -/
def live (state : State) (id : Uuid) : Bool :=
  (state.leases.find id).any Lease.live

/-- Live leases count for the larger of reservation and file, other staging
files for their size. -/
def load (state : State) : Nat :=
  state.leases.total (fun id lease => if lease.live then max lease.reserved (state.size id) else 0) +
    state.files.total (fun id size => if state.live id then 0 else size)

/-- The number of live leases and of staging files without one. -/
def number (state : State) : Nat :=
  state.leases.count (fun _ lease => lease.live) +
    state.files.count (fun id _ => !state.live id)

/-- What the permits of a process with a clone left amount to. -/
def permits (state : State) (process : Nat) : StageUsage where
  bytes := state.calls.total (fun _ call =>
    if call.process = process ∧ 0 < call.clones then call.bytes else 0)
  transfers := state.calls.count (fun _ call => call.process = process ∧ 0 < call.clones)

/-! ## Steps of a call -/

def setPhase (state : State) (run : Nat) (phase : Phase) : State :=
  { state with calls := state.calls.modify run (fun call => { call with phase := phase }) }

def enter (state : State) (run : Nat) (place : Place) : State :=
  { state with global := some (run, place) }

/-- `reserve` returns an error: its files close and the lock is free. -/
def refuse (state : State) (run : Nat) : State :=
  { state.setPhase run .refused with global := none }

/-- `upload_begin_request` up to `reserve_staging`. -/
def start (limits : Limits) (state : State) (process : Nat) (id : Uuid) (bytes : Nat) : State :=
  match reserveStaging limits (state.usage process) bytes with
  | none => state
  | some usage =>
      { state with
        usage := Function.update state.usage process usage
        calls := state.calls.insert state.next
          { process := process, id := id, bytes := bytes, clones := 1, phase := .admitted }
        next := state.next + 1 }

/-- The lock of the ledger, taken by `reserve` or by `DiskReservation::drop`. -/
def lock (state : State) (run : Nat) : State :=
  match state.global, state.calls.find run with
  | none, some call =>
      match call.phase with
      | .admitted => (state.setPhase run .reserving).enter run .opened
      | .dropping => state.enter run .discarding
      | _ => state
  | _, _ => state

/-- `read_dir` of the ledger gives every lease. -/
def listLeases (state : State) (names : List Uuid) : State :=
  match state.global with
  | some (run, .opened) =>
      if state.leases.rows.all (fun row => names.contains row.1) then
        state.enter run (.leases names Ledger.zero)
      else state
  | _ => state

/-- Open the next lease and try its lock. -/
def probe (state : State) : State :=
  match state.global with
  | some (run, .leases (id :: todo) ledger) =>
      match state.leases.find id with
      | none => state.refuse run
      | some lease => state.enter run (.probed id (!lease.live) todo ledger)
  | _ => state

/-- Account for the lease that was tried last. -/
def account (state : State) (run : Nat) (id : Uuid) (todo : List Uuid) (ledger : Ledger)
    (charged : Nat) : State :=
  match ledger.charge charged with
  | none => state.refuse run
  | some ledger => state.enter run (.leases todo { ledger with accounted := id :: ledger.accounted })

/-- Look for the staging file, delete an abandoned lease without one, and
charge the others. -/
def measure (state : State) : State :=
  match state.global with
  | some (run, .probed id true todo ledger) =>
      match state.files.find id with
      | none => { state with leases := state.leases.erase id }.enter run (.leases todo ledger)
      | some actual => state.account run id todo ledger actual
  | some (run, .probed id false todo ledger) =>
      match (state.leases.find id).bind Lease.content with
      | none => state.refuse run
      | some content => state.account run id todo ledger (max content (state.size id))
  | _ => state

/-- `read_dir` of the temporary directory gives every staging file that is
there now; it may give some that appear later. -/
def listFiles (state : State) (names : List Uuid) : State :=
  match state.global with
  | some (run, .leases [] ledger) =>
      if state.files.rows.all (fun row => names.contains row.1) then
        state.enter run (.files names ledger)
      else state
  | _ => state

/-- The next staging file.  One that has disappeared is either not listed any
more, or makes the call fail. -/
def nextFile (state : State) (listed : Bool) : State :=
  match state.global with
  | some (run, .files (id :: todo) ledger) =>
      if ledger.accounted.contains id then state.enter run (.files todo ledger)
      else
        match state.files.find id with
        | none => if listed then state.refuse run else state.enter run (.files todo ledger)
        | some actual =>
            match ledger.charge actual with
            | none => state.refuse run
            | some ledger => state.enter run (.files todo ledger)
  | _ => state

/-- The comparison with the limits. -/
def judge (limits : Limits) (state : State) : State :=
  match state.global with
  | some (run, .files [] ledger) =>
      match state.calls.find run with
      | none => state
      | some call =>
          if (ledger.total + call.bytes ≤ u64Max ∧ ledger.total + call.bytes ≤ limits.maximum) ∧
              ledger.count < limits.maxTransfers then
            state.enter run .judged
          else state.refuse run
  | _ => state

/-- Rewrite the lease of a call. -/
def setLease (state : State) (call : Call) (change : Lease -> Lease) : State :=
  { state with leases := state.leases.modify call.id change }

/-- `create_new` of the lease. -/
def create (state : State) : State :=
  match state.global with
  | some (run, .judged) =>
      match state.calls.find run with
      | none => state
      | some call =>
          match state.leases.find call.id with
          | some _ => state.refuse run
          | none =>
              { state with
                leases := state.leases.insert call.id
                  { reserved := call.bytes, content := none, holder := none } }.enter run .created
  | _ => state

/-- The lock of the new lease. -/
def flock (state : State) : State :=
  match state.global with
  | some (run, .created) =>
      match state.calls.find run with
      | none => state
      | some call =>
          (state.setLease call (fun lease => { lease with holder := some run })).enter run .flocked
  | _ => state

/-- `write_all` and `sync_all` of the amount. -/
def record (state : State) : State :=
  match state.global with
  | some (run, .flocked) =>
      match state.calls.find run with
      | none => state
      | some call =>
          (state.setLease call (fun lease => { lease with content := some call.bytes })).enter
            run .recorded
  | _ => state

/-- `reserve` returns the `DiskReservation`. -/
def finish (state : State) : State :=
  match state.global with
  | some (run, .recorded) => { state.setPhase run .held with global := none }
  | _ => state

/-- The lease of a call is deleted, or stays behind with some content and no
lock. -/
def leave (state : State) (call : Call) : Option (Option Nat) -> State
  | none => { state with leases := state.leases.erase call.id }
  | some content =>
      state.setLease call (fun lease => { lease with content := content, holder := none })

/-- A system call of `reserve` fails.  After `create_new` the lease is removed
or stays, depending on the step and on whether the removal works. -/
def fail (state : State) (left : Option (Option Nat)) : State :=
  match state.global with
  | none => state
  | some (run, place) =>
      match state.calls.find run with
      | none => state
      | some call =>
          match place with
          | .discarding => state
          | .created | .flocked | .recorded => (state.leave call left).refuse run
          | _ => state.refuse run

/-- The staging file is created, with `create_new`. -/
def stage (state : State) (run : Nat) : State :=
  match state.calls.find run with
  | none => state
  | some call =>
      if call.phase = .held ∧ state.files.find call.id = none then
        { state with files := state.files.insert call.id 0 }
      else state

/-- A write into the staging file that ends at `upto`. -/
def write (state : State) (run upto : Nat) : State :=
  match state.calls.find run with
  | none => state
  | some call =>
      if call.phase = .held ∧ upto ≤ call.bytes then
        { state with files := state.files.modify call.id (fun size => max size upto) }
      else state

/-- A staging file is removed, by whomever. -/
def unstage (state : State) (id : Uuid) : State :=
  { state with files := state.files.erase id }

/-- `Arc::clone` of a permit. -/
def clone (state : State) (run : Nat) : State :=
  match state.calls.find run with
  | none => state
  | some call =>
      if call.phase = .held then
        { state with calls := state.calls.modify run (fun call => { call with clones := call.clones + 1 }) }
      else state

/-- A clone of a permit is dropped; the last one runs `StageReservation::drop`. -/
def release (state : State) (run : Nat) : State :=
  match state.calls.find run with
  | none => state
  | some call =>
      if call.phase = .held ∨ call.phase = .refused then
        if 1 < call.clones then
          { state with
            calls := state.calls.modify run (fun call => { call with clones := call.clones - 1 }) }
        else
          { state with
            usage := Function.update state.usage call.process
              ((state.usage call.process).drop call.bytes)
            released := run :: state.released
            calls := state.calls.insert run
              { call with
                clones := 0
                phase := if call.phase = .held then .dropping else .dropped } }
      else state

/-- `DiskReservation::drop` under the lock of the ledger.  If the removal fails
the lease stays without a lock. -/
def discard (state : State) (removed : Bool) : State :=
  match state.global with
  | some (run, .discarding) =>
      match state.calls.find run with
      | none => state
      | some call =>
          let closed :=
            if removed then { state with leases := state.leases.erase call.id }
            else state.setLease call Lease.abandon
          { closed.setPhase run .dropped with global := none }
  | _ => state

/-- `DiskReservation::drop` without the lock of the ledger: only the lock of the
lease goes. -/
def lose (state : State) (run : Nat) : State :=
  match state.calls.find run with
  | none => state
  | some call =>
      if call.phase = .dropping ∧ state.global ≠ some (run, .discarding) then
        (state.setLease call Lease.abandon).setPhase run .dropped
      else state

/-- The call belongs to the process. -/
def ofProcess (state : State) (process run : Nat) : Bool :=
  (state.calls.find run).any (fun call => call.process = process)

/-- A process dies: the system closes its files, and nothing else happens. -/
def crash (state : State) (process : Nat) : State :=
  { state with
    leases := state.leases.map (fun _ lease =>
      if lease.holder.any (state.ofProcess process) then lease.abandon else lease)
    global := state.global.filter (fun entry => !state.ofProcess process entry.1)
    calls := state.calls.filter (fun _ call => call.process ≠ process)
    usage := Function.update state.usage process StageUsage.zero }

end State

/-- One step of one process, or the end of a process. -/
inductive Step where
  | start (process : Nat) (id : Uuid) (bytes : Nat)
  | lock (run : Nat)
  | listLeases (names : List Uuid)
  | probe
  | measure
  | listFiles (names : List Uuid)
  | nextFile (listed : Bool)
  | judge
  | create
  | flock
  | record
  | finish
  | fail (left : Option (Option Nat))
  | stage (run : Nat)
  | write (run upto : Nat)
  | unstage (id : Uuid)
  | clone (run : Nat)
  | release (run : Nat)
  | discard (removed : Bool)
  | lose (run : Nat)
  | crash (process : Nat)

def step (limits : Limits) (state : State) : Step -> State
  | .start process id bytes => state.start limits process id bytes
  | .lock run => state.lock run
  | .listLeases names => state.listLeases names
  | .probe => state.probe
  | .measure => state.measure
  | .listFiles names => state.listFiles names
  | .nextFile listed => state.nextFile listed
  | .judge => state.judge limits
  | .create => state.create
  | .flock => state.flock
  | .record => state.record
  | .finish => state.finish
  | .fail left => state.fail left
  | .stage run => state.stage run
  | .write run upto => state.write run upto
  | .unstage id => state.unstage id
  | .clone run => state.clone run
  | .release run => state.release run
  | .discard removed => state.discard removed
  | .lose run => state.lose run
  | .crash process => state.crash process

end Budget

end TealDrive
