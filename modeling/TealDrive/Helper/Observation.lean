import TealDrive.Helper.Inodes

namespace TealDrive

open Outcome

/-!
# Observing a tree

`capture` computes the state of whatever is at a path.  The state of a file
carries the digest of its content, and the state of a directory the digest of
the names and digests below it.  Many things may go wrong on the way: an entry
that may not be read, a name that is no text, a limit.  Some of them fail the
whole capture, and some only leave a digest out.

The tree does not change while it is observed.  `faults` says which calls fail
for reasons outside of it.
-/

/-- `MAX_NODES`. -/
def maxObservedNodes : Nat := 10000

/-- `MAX_BYTES`. -/
def maxObservedBytes : Nat := 64 * 1024 * 1024

/-- The depth up to which directories are observed. -/
def maxObservedDepth : Nat := 64

/-- The size of the buffer a file is read with. -/
def observationBuffer : Nat := 65536

/-- The calls about one path that may fail by themselves. -/
inductive Probe where
  | cancelled
  | pin
  | pinned
  | openFile
  | opened
  | stat
  | rewind
  | stillRunning (offset : Nat)
  | read (offset : Nat)
  | changed
  | list
  | entry (index : Nat)
  | unchanged
deriving DecidableEq

/-- What is observed, by whom, and how the calls turn out. -/
structure Observer where
  tree : Folder
  context : Option Context
  sha256 : List UInt8 -> Text
  faults : RelativePath -> Probe -> Option IoError

/-- The entries and the bytes observed so far. -/
structure Budget where
  nodes : Nat
  bytes : Nat
deriving DecidableEq

/-- A computation that keeps its budget when it fails. -/
def Capture (Value : Type) : Type := Budget -> Except IoError Value × Budget

namespace Capture

instance : Monad Capture where
  pure value := fun budget => (.ok value, budget)
  bind first next := fun budget =>
    match first budget with
    | (.ok value, after) => next value after
    | (.error error, after) => (.error error, after)

def lift {Value : Type} (outcome : Except IoError Value) : Capture Value :=
  fun budget => (outcome, budget)

/-- `ok()`: a failure becomes a missing value. -/
def succeeded {Value : Type} (capture : Capture Value) : Capture (Option Value) :=
  fun budget =>
    match capture budget with
    | (.ok value, after) => (.ok (some value), after)
    | (.error _, after) => (.ok none, after)

def used : Capture Budget := fun budget => (.ok budget, budget)

def spend (nodes bytes : Nat) : Capture Unit :=
  fun budget => (.ok (), ⟨budget.nodes + nodes, budget.bytes + bytes⟩)

variable {Value Result : Type} {budget after : Budget}

theorem bind_ok {first : Capture Value} {next : Value -> Capture Result} {result : Result} :
    (first >>= next) budget = (.ok result, after) ↔
      ∃ value between, first budget = (.ok value, between) ∧
        next value between = (.ok result, after) := by
  change (match first budget with
    | (.ok value, after) => next value after
    | (.error error, after) => (.error error, after)) = _ ↔ _
  rcases first budget with ⟨outcome, between⟩
  cases outcome with
  | error problem =>
      constructor
      · intro impossible
        cases impossible
      · rintro ⟨value, other, impossible, _⟩
        cases impossible
  | ok value =>
      constructor
      · intro continued
        exact ⟨value, between, rfl, continued⟩
      · rintro ⟨other, later, same, continued⟩
        cases same
        exact continued

theorem pure_ok {value result : Value} :
    (pure value : Capture Value) budget = (.ok result, after) ↔ value = result ∧ budget = after := by
  change (Except.ok value, budget) = _ ↔ _
  rw [Prod.mk.injEq, Except.ok.injEq]

theorem lift_ok {outcome : Except IoError Value} {result : Value} :
    lift outcome budget = (.ok result, after) ↔ outcome = .ok result ∧ budget = after := by
  change (outcome, budget) = _ ↔ _
  rw [Prod.mk.injEq]

theorem used_ok {result : Budget} :
    used budget = (.ok result, after) ↔ result = budget ∧ budget = after := by
  change (Except.ok budget, budget) = _ ↔ _
  rw [Prod.mk.injEq, Except.ok.injEq, eq_comm]

theorem spend_ok {nodes bytes : Nat} {result : Unit} :
    spend nodes bytes budget = (.ok result, after) ↔
      after = ⟨budget.nodes + nodes, budget.bytes + bytes⟩ := by
  change (Except.ok (), _) = _ ↔ _
  rw [Prod.mk.injEq, eq_comm (a := after)]
  exact and_iff_right rfl

/-- A part that may fail leaves a value only when it went well. -/
theorem succeeded_some {capture : Capture Value} {value : Value} :
    capture.succeeded budget = (.ok (some value), after) ↔ capture budget = (.ok value, after) := by
  change (match capture budget with
    | (.ok value, after) => (Except.ok (some value), after)
    | (.error _, after) => (Except.ok none, after)) = _ ↔ _
  rcases capture budget with ⟨outcome, between⟩
  cases outcome with
  | error problem =>
      constructor
      · intro impossible
        cases impossible
      · intro impossible
        cases impossible
  | ok other =>
      rw [Prod.mk.injEq, Prod.mk.injEq, Except.ok.injEq, Except.ok.injEq, Option.some.injEq]

end Capture

namespace Observer

def attempt (observer : Observer) (path : RelativePath) (probe : Probe) : Except IoError Unit :=
  forSome (observer.faults path probe) .error

def openAt (observer : Observer) (path : RelativePath) (probe : Probe) (mode : OpenMode) :
    Except IoError Folder :=
  openInode observer.context (observer.faults path probe) observer.tree path mode

/-- The loop of `capture_readable_file`: what has been hashed, and what is left
of the file.  The first argument bounds the number of reads. -/
def readLoop (observer : Observer) (path : RelativePath) (limit : Nat) :
    Nat -> List UInt8 -> List UInt8 -> Except IoError (List UInt8)
  | 0, hashed, _ => .ok hashed
  | reads + 1, hashed, left => do
      observer.attempt path (.stillRunning hashed.length)
      observer.attempt path (.read hashed.length)
      let part := left.take observationBuffer
      if part.isEmpty then return hashed
      refuse (decide (limit < hashed.length + part.length)) .other
      observer.readLoop path limit reads (hashed ++ part) (left.drop observationBuffer)

def contentOf : Folder -> List UInt8
  | .leaf (.file _ bytes) => bytes
  | _ => []

/-- `capture_readable_file`. -/
def captureReadableFile (observer : Observer) (path : RelativePath) (file : Folder) :
    Except IoError FileState := do
  observer.attempt path .stat
  let state := FileState.metadata file
  if file.kind != .file || decide (maxObservedBytes < file.inode.size) then
    return state.finish observer.sha256
  observer.attempt path .rewind
  let content := contentOf file
  let hashed ← observer.readLoop path file.inode.size (content.length + 1) [] content
  observer.attempt path .changed
  refuse (FileState.metadata file != state || hashed.length != file.inode.size) .other
  return ({ state with contentDigest := some (observer.sha256 hashed) } : FileState).finish
    observer.sha256

/-- The content digest of a file, when it can be read and is not too much. -/
def captureContent (observer : Observer) (path : RelativePath) (item : Folder) :
    Capture (Option Text) := do
  let budget ← Capture.used
  if maxObservedBytes < budget.bytes + item.inode.size then return none
  match observer.openAt path .openFile .read with
  | .error _ => return none
  | .ok file => do
      let state := FileState.metadata item
      Capture.lift (observer.attempt path .opened)
      Capture.lift (refuse (FileState.metadata file != state) .other)
      let observed ← Capture.lift (observer.captureReadableFile path file)
      Capture.lift (refuse (!state.sameMetadata observed) .other)
      Capture.spend 0 item.inode.size
      return observed.contentDigest

/-- The loop over `read_dir`. -/
def readNames (observer : Observer) (path : RelativePath) (nodes : Nat) :
    List EntryName -> List Text -> Except IoError (List Text)
  | [], names => .ok names
  | entry :: rest, names => do
      refuse (decide (maxObservedNodes ≤ names.length + nodes)) .other
      observer.attempt path (.entry names.length)
      match entry with
      | .raw _ => .error .other
      | .text name => observer.readNames path nodes rest (names ++ [name.1])

/-- What the digest of a directory is taken of, for one entry. -/
def entryBytes (name digest : Text) : List UInt8 :=
  Utf8.encode name ++ [0] ++ Utf8.encode digest ++ [0]

/-- The loop over the sorted names. -/
def captureChildren (inner : RelativePath -> Capture FileState) (path : RelativePath) :
    List Text -> List UInt8 -> Capture (List UInt8)
  | [], hashed => return hashed
  | name :: rest, hashed => do
      let child ← inner (childPath path name)
      Capture.lift (refuse (!child.fullyObserved) .other)
      captureChildren inner path rest (hashed ++ entryBytes name child.digest)

/-- The tree digest of a directory. -/
def captureTree (observer : Observer) (inner : RelativePath -> Capture FileState)
    (path : RelativePath) (item : Folder) : Capture Text := do
  Capture.lift (mapError (fun _ => IoError.other) (checkAccess observer.context path .read))
  Capture.lift (observer.attempt path .list)
  let budget ← Capture.used
  let names ← Capture.lift (observer.readNames path budget.nodes item.entryNames [])
  let hashed ← captureChildren inner path (names.insertionSort (· ≤ ·)) []
  Capture.lift (observer.attempt path .unchanged)
  Capture.lift (refuse (FileState.metadata item != FileState.metadata item) .other)
  return observer.sha256 hashed

/-- `capture_inner` of a path that is within the limits. -/
def captureItem (observer : Observer) (inner : RelativePath -> Capture FileState)
    (path : RelativePath) : Capture FileState := do
  let pinned ← Capture.lift (observer.openAt path .pin .path)
  Capture.lift (observer.attempt path .pinned)
  let state := FileState.metadata pinned
  match pinned.kind with
  | .file => do
      let digest ← observer.captureContent path pinned
      return ({ state with contentDigest := digest } : FileState).finish observer.sha256
  | .directory => do
      let digest ← (observer.captureTree inner path pinned).succeeded
      return ({ state with treeDigest := digest } : FileState).finish observer.sha256
  | .other => return state.finish observer.sha256

/-- `capture_inner`.  The first argument is how many more levels may be
entered. -/
def captureInner (observer : Observer) : Nat -> RelativePath -> Capture FileState
  | levels, path => do
      Capture.lift (observer.attempt path .cancelled)
      Capture.spend 1 0
      let budget ← Capture.used
      Capture.lift (refuse (decide (maxObservedNodes < budget.nodes)) .other)
      match levels with
      | 0 => Capture.lift (.error .other)
      | levels + 1 => observer.captureItem (observer.captureInner levels) path

/-- `capture`. -/
def capture (observer : Observer) (path : RelativePath) : Except IoError FileState :=
  (observer.captureInner (maxObservedDepth + 1) path ⟨0, 0⟩).1

end Observer

end TealDrive
