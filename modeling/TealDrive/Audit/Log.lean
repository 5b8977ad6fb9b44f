import TealDrive.Config
import TealDrive.Library.Table

namespace TealDrive

namespace Audit

/-!
# The audit log on disk

`JsonlAuditSink` appends one line for each event to a file.  When the file is
full it becomes archive 1, after every archive has moved up by one index, and a
new file takes its place.  `prune` removes archives beyond the configured count
or age.

Directory entries other than the log and its numbered archives are left out,
and so are the temporary file's own name, which is never reused, and the write
itself, which is taken to succeed.  Every other call may fail.  Which ones do,
the clocks, and the order in which the directory lists its entries are inputs
of one emit.  Instants and ages are in nanoseconds, and one emit reads each
clock once.
-/

/-- The JSON text of one event, without the newline that ends it on disk. -/
abbrev Line := List UInt8

structure LogFile where
  lines : List Line
  modified : Nat
deriving DecidableEq

def LogFile.size (file : LogFile) : Nat :=
  (file.lines.map (fun line => line.length + 1)).sum

def LogFile.append (file : LogFile) (line : Line) (now : Nat) : LogFile :=
  ⟨file.lines ++ [line], now⟩

/-- The names the sink gives to files: its path, and its path with an index. -/
inductive Name where
  | live
  | archive (index : Nat)
deriving DecidableEq

/-- Where the file is that the writer holds open: an open file follows its
renames, and outlives its removal. -/
inductive Handle where
  | named (name : Name)
  | unlinked (file : LogFile)
deriving DecidableEq

/-- The directory and the `Writer`. -/
structure Sink where
  files : Table Name LogFile
  file : Handle
  config : AuditConfig
  lastPrune : Option Nat

/-- The calls of one emit that may fail.  A pruning pass is forced or not. -/
inductive Operation where
  | readDir (force : Bool)
  | entry (force : Bool) (index : Nat)
  | metadata (force : Bool) (index : Nat)
  | remove (force : Bool) (index : Nat)
  | endOfDir (force : Bool)
  | render
  | measure
  | flush
  | openTemporary
  | inspectSource (index : Nat)
  | inspectTarget (index : Nat)
  | shift (index : Nat)
  | inspectFirst
  | retire
  | publish
  | restore
deriving DecidableEq

/-- What the world answers during one emit. -/
structure Calls where
  now : Nat
  instant : Nat
  arrange : List Nat -> List Nat
  arranged : forall indices, (arrange indices).Perm indices
  fails : Operation -> Bool

abbrev Outcome := Sink × Except Operation Unit

/-- Go on unless the call fails. -/
def Sink.attempt (sink : Sink) (calls : Calls) (operation : Operation) (next : Outcome) : Outcome :=
  if calls.fails operation then (sink, .error operation) else next

/-- `?` on the outcome of a helper. -/
def Outcome.andThen (outcome : Outcome) (next : Sink -> Outcome) : Outcome :=
  match outcome with
  | (sink, .ok ()) => next sink
  | (sink, .error operation) => (sink, .error operation)

/-! ## The directory -/

/-- `rename(2)`: the source replaces whatever has the target's name. -/
def Handle.renamed (source target : Name) (replaced : Option LogFile) : Handle -> Handle
  | .unlinked file => .unlinked file
  | .named name =>
      if name = source then .named target
      else if name = target then
        match replaced with
        | some file => .unlinked file
        | none => .named name
      else .named name

def Sink.rename (sink : Sink) (calls : Calls) (operation : Operation) (source target : Name) :
    Outcome :=
  sink.attempt calls operation
    (match sink.files.find source with
    | none => (sink, .error operation)
    | some file =>
        ({ sink with
            files := (sink.files.erase source).insert target file
            file := sink.file.renamed source target (sink.files.find target) }, .ok ()))

/-- `unlink(2)` of an archive. -/
def Sink.unlink (sink : Sink) (index : Nat) (file : LogFile) : Sink :=
  { sink with
    files := sink.files.erase (.archive index)
    file := if sink.file = .named (.archive index) then .unlinked file else sink.file }

/-- The index of an archive.  Index 0 is skipped. -/
def Name.index : Name -> Option Nat
  | .live => none
  | .archive index => if index = 0 then none else some index

/-- The archives a directory scan recognises. -/
def Sink.indices (sink : Sink) : List Nat :=
  (sink.files.rows.map Prod.fst).filterMap Name.index

/-! ## Pruning -/

def nanosPerHour : Nat := 3600 * 1000000000

def pruneInterval : Nat := 60 * 1000000000

end Audit

def AuditConfig.effectiveRetentionHours (config : AuditConfig) : Option Nat :=
  (config.retentionDays.map (fun days => days * 24)).or config.retentionHours

namespace Audit

/-- Older than the configured retention.  A file from the future has age 0. -/
def expired (config : AuditConfig) (now : Nat) (file : LogFile) : Bool :=
  config.effectiveRetentionHours.any (fun hours => decide (hours * nanosPerHour < now - file.modified))

def due (config : AuditConfig) (now : Nat) (index : Nat) (file : LogFile) : Bool :=
  decide (config.maxArchives < index) || expired config now file

/-- The loop over the directory. -/
def Sink.scan (calls : Calls) (force : Bool) : List Nat -> Sink -> Outcome
  | [], sink => sink.attempt calls (.endOfDir force) (sink, .ok ())
  | index :: rest, sink =>
      sink.attempt calls (.entry force index) <|
        sink.attempt calls (.metadata force index) <|
          match sink.files.find (.archive index) with
          | none => (sink, .error (.metadata force index))
          | some file =>
              if due sink.config calls.now index file then
                sink.attempt calls (.remove force index)
                  (Sink.scan calls force rest (sink.unlink index file))
              else Sink.scan calls force rest sink

/-- Less than a minute has passed since the last complete pass. -/
def Sink.recentlyPruned (sink : Sink) (calls : Calls) : Bool :=
  sink.lastPrune.any (fun time => decide (calls.instant - time < pruneInterval))

def Sink.prune (sink : Sink) (calls : Calls) (force : Bool) : Outcome :=
  if !force && sink.recentlyPruned calls then (sink, .ok ())
  else
    sink.attempt calls (.readDir force) <|
      (Sink.scan calls force (calls.arrange sink.indices) sink).andThen (fun sink =>
        ({ sink with lastPrune := some calls.instant }, .ok ()))

/-! ## Rotation -/

/-- `for index in (1..=max_archives).rev()`: move each archive up by one. -/
def Sink.shiftArchives (calls : Calls) : Nat -> Sink -> Outcome
  | 0, sink => (sink, .ok ())
  | index + 1, sink =>
      sink.attempt calls (.inspectSource (index + 1)) <|
        match sink.files.find (.archive (index + 1)) with
        | none => Sink.shiftArchives calls index sink
        | some _ =>
            sink.attempt calls (.inspectTarget (index + 1)) <|
              (sink.rename calls (.shift (index + 1)) (.archive (index + 1))
                (.archive (index + 2))).andThen (Sink.shiftArchives calls index)

/-- The temporary file takes the log's name, which the log has just left. -/
def Sink.publish (sink : Sink) (now : Nat) : Sink :=
  { sink with files := sink.files.insert .live ⟨[], now⟩, file := .named .live }

/-- When the new file cannot be put in place, the log gets its name back.
The error is reported either way. -/
def Sink.restore (sink : Sink) (calls : Calls) : Outcome :=
  ((sink.rename calls .restore (.archive 1) .live).1, .error .publish)

def Sink.rotate (sink : Sink) (calls : Calls) : Outcome :=
  sink.attempt calls .flush <|
    sink.attempt calls .openTemporary <|
      (Sink.shiftArchives calls sink.config.maxArchives sink).andThen fun sink =>
        sink.attempt calls .inspectFirst <|
          (sink.rename calls .retire .live (.archive 1)).andThen fun sink =>
            if calls.fails .publish then sink.restore calls
            else (sink.publish calls.now).prune calls true

/-! ## Emitting -/

/-- The file that the writer holds open. -/
def Sink.held (sink : Sink) : Option LogFile :=
  match sink.file with
  | .named name => sink.files.find name
  | .unlinked file => some file

def Sink.write (sink : Sink) (line : Line) (now : Nat) : Sink :=
  match sink.file with
  | .named name => { sink with files := sink.files.modify name (fun file => file.append line now) }
  | .unlinked file => { sink with file := .unlinked (file.append line now) }

/-- The size of the open file. -/
def Sink.heldSize (sink : Sink) : Nat :=
  (sink.held.map LogFile.size).getD 0

/-- Whether the line makes the open file too large.  An empty file takes any
line. -/
def Sink.full (sink : Sink) (line : Line) : Bool :=
  decide (0 < sink.heldSize) && decide (sink.config.maxFileBytes < sink.heldSize + (line.length + 1))

def Sink.emit (sink : Sink) (calls : Calls) (line : Line) : Outcome :=
  sink.attempt calls .render <|
    (sink.prune calls false).andThen fun sink =>
      sink.attempt calls .measure <|
        (if sink.full line then sink.rotate calls else (sink, .ok ())).andThen fun sink =>
          (sink.write line calls.now, .ok ())

/-- `apply` of a configuration prepared for the same path: the file stays. -/
def Sink.apply (sink : Sink) (config : AuditConfig) : Sink :=
  { sink with config := config, lastPrune := none }

/-- A sink opened on a path where there is nothing yet. -/
def Sink.opened (config : AuditConfig) (now : Nat) : Sink :=
  ⟨Table.empty.insert .live ⟨[], now⟩, .named .live, config, none⟩

/-! ## Reading the log back -/

def Sink.linesOf (sink : Sink) (name : Name) : List Line :=
  ((sink.files.find name).map LogFile.lines).getD []

/-- The lines of the archives from the given index down to 1. -/
def Sink.archived (sink : Sink) : Nat -> List Line
  | 0 => []
  | index + 1 => sink.linesOf (.archive (index + 1)) ++ Sink.archived sink index

/-- The archives from the highest index down to 1, and then the log. -/
def Sink.reading (sink : Sink) : List Line :=
  sink.archived (sink.indices.foldr max 0) ++ sink.linesOf .live

end Audit

end TealDrive
