import TealDrive.Helper.Publishing
import TealDrive.Library.Inventory

namespace TealDrive

open Outcome
open scoped BigOperators

/-!
# The quota of a root

What a root uses is measured before a request is handled, and the lock that is
taken for it is held until the request is done.  A file with several names
counts once, a link not at all, and whatever cannot be looked at fails the
measurement as a whole.

A directory that is read lists each name once.
-/

/-! ## Measuring -/

/-- The device and the number of an inode. -/
abbrev FileKey : Type := Nat × Nat

def Stat.key (stat : Stat) : FileKey := (stat.dev, stat.ino)

/-- The inodes met so far, and the number of entries. -/
structure Tally where
  seen : Finset FileKey
  count : Nat

def maxQuotaEntries : Nat := 1000000

/-- The entries that `read_dir` returns, opened by their names. -/
def children : Node -> List (Text × Node)
  | .leaf _ => []
  | .branch _ entries =>
      (entries.map Prod.fst).dedup.filterMap (fun name =>
        (Rows.find name entries).map (fun item => (name, item)))

section Size

variable (calls : Calls)

/-- What one entry adds. -/
def entrySize (below : Node -> Tally -> Except IoError (Nat × Tally)) (path : List Text)
    (item : Node) (tally : Tally) : Except IoError (Nat × Tally) := do
  refuse (decide (tally.count > maxQuotaEntries)) .other
  calls.attempt (.openAt .item path)
  match item with
  | .branch _ _ =>
      calls.attempt (.openAt .entry path)
      below item tally
  | .leaf (.file stat bytes) =>
      if stat.key ∈ tally.seen then return (0, tally)
      else return (bytes.length, { tally with seen := insert stat.key tally.seen })
  | .leaf _ => return (0, tally)

/-- The loop over the entries of a directory. -/
def sumEntries (below : List Text -> Node -> Tally -> Except IoError (Nat × Tally))
    (path : List Text) : List (Text × Node) -> Nat -> Tally -> Except IoError (Nat × Tally)
  | [], total, tally => .ok (total, tally)
  | (name, item) :: rest, total, tally => do
      let (bytes, tally) ← entrySize calls (below (path ++ [name])) (path ++ [name]) item
        { tally with count := tally.count + 1 }
      refuse (decide (total + bytes > u64Max)) .other
      sumEntries below path rest (total + bytes) tally

/-- `quota::size`.  The first argument is how many levels it may look into. -/
def size : Nat -> List Text -> Node -> Tally -> Except IoError (Nat × Tally)
  | 0, _, _, _ => .error .other
  | levels + 1, path, node, tally => do
      calls.attempt .cancelled
      calls.attempt (.list path)
      sumEntries calls (size levels) path (children node) 0 tally

/-- `quota::measure`. -/
def measure (disk : Node) : Except IoError Nat := do
  calls.attempt .root
  let (used, _) ← size calls 129 [] disk ⟨∅, 0⟩
  return used

end Size

structure Reservation where
  available : Option Nat
  usedBytes : Nat

/-- `Reservation::acquire`. -/
def Reservation.acquire (calls : Calls) (root : AllowedRoot) (disk : Node) :
    Except IoError Reservation :=
  match root.quotaBytes with
  | some limit => do
      let used ← measure calls disk
      return ⟨some (limit - used), used⟩
  | none => do
      calls.attempt .root
      return ⟨none, 0⟩

/-! ## What a tree uses -/

/-- A regular file of the tree, by its inode and its length. -/
def FileOf (disk : Node) (key : FileKey) (length : Nat) : Prop :=
  ∃ path stat bytes, disk.lookup path = some (.leaf (.file stat bytes)) ∧ stat.key = key ∧
    bytes.length = length

theorem mem_children {mode : Nat} {entries : List (Text × Node)} {name : Text} {item : Node} :
    (name, item) ∈ children (.branch mode entries) ↔ Rows.find name entries = some item := by
  unfold children
  rw [List.mem_filterMap]
  constructor
  · rintro ⟨other, _, made⟩
    rcases Option.map_eq_some_iff.mp made with ⟨child, found, same⟩
    cases same
    exact found
  · intro found
    refine ⟨name, ?_, by rw [found]; rfl⟩
    rw [List.mem_dedup]
    by_contra outside
    rw [Rows.find_eq_none_iff.mpr outside] at found
    cases found

/-- The files of a directory are those of its entries. -/
theorem fileOf_branch {mode : Nat} {entries : List (Text × Node)} {key : FileKey} {length : Nat} :
    FileOf (.branch mode entries) key length ↔
      ∃ entry, entry ∈ children (.branch mode entries) ∧ FileOf entry.2 key length := by
  constructor
  · rintro ⟨path, stat, bytes, found, same, measured⟩
    cases path with
    | nil => cases found
    | cons name rest =>
        rw [NamedTree.lookup_branch] at found
        rcases Option.bind_eq_some_iff.mp found with ⟨child, here, there⟩
        exact ⟨(name, child), mem_children.mpr here, rest, stat, bytes, there, same, measured⟩
  · rintro ⟨⟨name, child⟩, listed, path, stat, bytes, found, same, measured⟩
    refine ⟨name :: path, stat, bytes, ?_, same, measured⟩
    rw [NamedTree.lookup_branch, mem_children.mp listed]
    exact found

theorem fileOf_leaf {content : Leaf} {key : FileKey} {length : Nat} :
    FileOf (.leaf content) key length ↔
      ∃ stat bytes, content = .file stat bytes ∧ stat.key = key ∧ bytes.length = length := by
  constructor
  · rintro ⟨path, stat, bytes, found, same, measured⟩
    cases path with
    | nil =>
        cases found
        exact ⟨stat, bytes, rfl, same, measured⟩
    | cons name rest => cases found
  · rintro ⟨stat, bytes, rfl, same, measured⟩
    exact ⟨[], stat, bytes, rfl, same, measured⟩

/-! ## What is measured -/

/-- What a measurement of some files adds to the tally. -/
structure Measured (weight : FileKey -> Nat) (holds : FileKey -> Prop) (before after : Tally)
    (bytes : Nat) : Prop where
  seen : forall key, key ∈ after.seen ↔ key ∈ before.seen ∨ holds key
  total : ∑ key ∈ before.seen, weight key + bytes = ∑ key ∈ after.seen, weight key

section Measure

variable {calls : Calls} {weight : FileKey -> Nat} {before after : Tally} {bytes : Nat}

/-- The files of a part of the tree. -/
def Weighted (weight : FileKey -> Nat) (item : Node) : Prop :=
  forall key length, FileOf item key length -> length = weight key

/-- A measurement of a part of the tree. -/
def Sound (weight : FileKey -> Nat) (item : Node)
    (below : Tally -> Except IoError (Nat × Tally)) : Prop :=
  Weighted weight item -> forall before after bytes, below before = .ok (bytes, after) ->
    Measured weight (fun key => ∃ length, FileOf item key length) before after bytes

/-- Nothing is measured. -/
theorem Measured.nothing {holds : FileKey -> Prop} {count : Nat}
    (none_ : forall key, holds key -> key ∈ before.seen) :
    Measured weight holds before ⟨before.seen, count⟩ 0 := by
  refine ⟨?_, rfl⟩
  intro key
  exact ⟨Or.inl, fun either => either.elim id (none_ key)⟩

/-- What is no file adds nothing. -/
theorem Measured.other {content : Leaf} {count : Nat}
    (other : forall stat bytes, content ≠ .file stat bytes) :
    Measured weight (fun key => ∃ length, FileOf (.leaf content) key length) before
      ⟨before.seen, count⟩ 0 := by
  apply Measured.nothing
  rintro key ⟨length, held⟩
  rcases fileOf_leaf.mp held with ⟨stat, bytes, file, _⟩
  exact absurd file (other stat bytes)

theorem entrySize_sound {below : Node -> Tally -> Except IoError (Nat × Tally)} {path : List Text}
    {item : Node} (sound : item.isBranch = true -> Sound weight item (below item))
    (weighted : Weighted weight item) {count : Nat}
    (done : entrySize calls below path item { before with count := count } = .ok (bytes, after)) :
    Measured weight (fun key => ∃ length, FileOf item key length) before after bytes := by
  simp only [entrySize, bind_eq_ok] at done
  rcases done with ⟨_, _, _, _, done⟩
  cases item with
  | branch mode entries =>
      rcases bind_eq_ok.mp done with ⟨_, _, inner⟩
      have measured := sound rfl weighted _ _ _ inner
      exact ⟨measured.seen, measured.total⟩
  | leaf content =>
      cases content with
      | file stat data =>
          dsimp only at done
          have only : forall key, (∃ length, FileOf (.leaf (.file stat data)) key length) ↔
              key = stat.key := by
            intro key
            constructor
            · rintro ⟨length, held⟩
              rcases fileOf_leaf.mp held with ⟨own, _, spelled, same, _⟩
              cases spelled
              exact same.symm
            · rintro rfl
              exact ⟨_, fileOf_leaf.mpr ⟨stat, data, rfl, rfl, rfl⟩⟩
          split at done
          · next met =>
              cases done
              apply Measured.nothing
              intro key held
              rw [(only key).mp held]
              exact met
          · next unmet =>
              cases done
              constructor
              · intro key
                dsimp only
                rw [Finset.mem_insert, only key, or_comm]
              · have weighs := weighted stat.key data.length
                  (fileOf_leaf.mpr ⟨stat, data, rfl, rfl, rfl⟩)
                dsimp only
                rw [Finset.sum_insert unmet, weighs, Nat.add_comm]
      | symlink target =>
          cases done
          exact Measured.other (fun _ _ file => Leaf.noConfusion file)
      | special =>
          cases done
          exact Measured.other (fun _ _ file => Leaf.noConfusion file)

/-- The loop adds up what the entries add. -/
theorem sumEntries_sound {below : List Text -> Node -> Tally -> Except IoError (Nat × Tally)}
    {path : List Text} {entries : List (Text × Node)} {total : Nat}
    (sound : forall path item, item.isBranch = true -> Sound weight item (below path item))
    (weighted : forall entry, entry ∈ entries -> Weighted weight entry.2)
    (done : sumEntries calls below path entries total before = .ok (bytes, after)) :
    ∃ added, bytes = total + added ∧
      Measured weight (fun key => ∃ entry, entry ∈ entries ∧ ∃ length, FileOf entry.2 key length)
        before after added := by
  induction entries generalizing before total with
  | nil =>
      cases done
      refine ⟨0, rfl, Measured.nothing ?_⟩
      rintro key ⟨_, impossible, _⟩
      cases impossible
  | cons entry rest ih =>
      rcases entry with ⟨name, item⟩
      simp only [sumEntries, bind_eq_ok, Prod.exists] at done
      rcases done with ⟨first, middle, entered, _, _, done⟩
      have here := entrySize_sound (sound _ item) (weighted _ List.mem_cons_self) entered
      rcases ih (fun other listed => weighted other (List.mem_cons_of_mem _ listed)) done with
        ⟨added, rfl, later⟩
      refine ⟨first + added, Nat.add_assoc _ _ _, ?_, ?_⟩
      · intro key
        rw [later.seen, here.seen, or_assoc]
        simp only [List.exists_mem_cons_iff]
      · rw [← later.total, ← here.total, Nat.add_assoc]

/-- A measurement that succeeds has met every file below, each once. -/
theorem size_sound (levels : Nat) (path : List Text) (item : Node) (branch : item.isBranch = true) :
    Sound weight item (size calls levels path item) := by
  induction levels generalizing path item with
  | zero =>
      intro _ before after bytes impossible
      cases impossible
  | succ levels ih =>
      intro weighted before after bytes done
      cases item with
      | leaf content => cases branch
      | branch mode entries =>
          simp only [size, bind_eq_ok] at done
          rcases done with ⟨_, _, _, _, done⟩
          have below : forall entry, entry ∈ children (.branch mode entries) ->
              Weighted weight entry.2 :=
            fun entry listed key length held =>
              weighted key length (fileOf_branch.mpr ⟨entry, listed, held⟩)
          rcases sumEntries_sound ih below done with ⟨added, rfl, measured⟩
          rw [Nat.zero_add]
          refine ⟨?_, measured.total⟩
          intro key
          rw [measured.seen]
          apply or_congr_right
          constructor
          · rintro ⟨entry, listed, length, held⟩
            exact ⟨length, fileOf_branch.mpr ⟨entry, listed, held⟩⟩
          · rintro ⟨length, held⟩
            rcases fileOf_branch.mp held with ⟨entry, listed, inside⟩
            exact ⟨entry, listed, length, inside⟩

end Measure

/-! ## What has to be looked at -/

/-- What a measurement of a directory looks at: every directory is listed, and
every entry is opened, a directory once more to be read. -/
def LooksAt (path : List Text) (item : Node) (site : Site) : Prop :=
  ∃ below found, item.lookup below = some found ∧
    (below ≠ [] ∧ site = .openAt .item (path ++ below) ∨
      found.isBranch = true ∧
        (site = .list (path ++ below) ∨ below ≠ [] ∧ site = .openAt .entry (path ++ below)))

section Looking

variable {calls : Calls} {before after : Tally} {bytes : Nat} {site : Site}

theorem attempt_eq_ok : calls.attempt site = .ok () ↔ calls.faults site = none := by
  unfold Calls.attempt
  cases calls.faults site with
  | none => exact ⟨fun _ => rfl, fun _ => rfl⟩
  | some error =>
      constructor
      · intro impossible
        cases impossible
      · intro impossible
        cases impossible

/-- An entry that is measured was opened, and a directory entered. -/
theorem entrySize_looks {below : Node -> Tally -> Except IoError (Nat × Tally)}
    {path : List Text} {item : Node}
    (done : entrySize calls below path item before = .ok (bytes, after)) :
    calls.faults (.openAt .item path) = none ∧
      (item.isBranch = true -> calls.faults (.openAt .entry path) = none ∧
        ∃ entered, below item entered = .ok (bytes, after)) := by
  simp only [entrySize, bind_eq_ok] at done
  rcases done with ⟨_, _, _, opened, done⟩
  refine ⟨attempt_eq_ok.mp opened, ?_⟩
  intro branch
  cases item with
  | branch mode entries =>
      rcases bind_eq_ok.mp done with ⟨_, entered, inner⟩
      exact ⟨attempt_eq_ok.mp entered, _, inner⟩
  | leaf content => cases branch

/-- The loop measures every entry. -/
theorem sumEntries_entered {below : List Text -> Node -> Tally -> Except IoError (Nat × Tally)}
    {path : List Text} {entries : List (Text × Node)} {total : Nat} {name : Text} {item : Node}
    (done : sumEntries calls below path entries total before = .ok (bytes, after))
    (listed : (name, item) ∈ entries) :
    ∃ middle added later,
      entrySize calls (below (path ++ [name])) (path ++ [name]) item middle =
        .ok (added, later) := by
  induction entries generalizing before total with
  | nil => cases listed
  | cons entry rest ih =>
      rcases entry with ⟨first, child⟩
      simp only [sumEntries, bind_eq_ok, Prod.exists] at done
      rcases done with ⟨added, middle, entered, _, _, done⟩
      rcases List.mem_cons.mp listed with same | listed
      · cases same
        exact ⟨_, added, middle, entered⟩
      · exact ih done listed

/-- A measurement that succeeds has looked at everything below. -/
theorem size_looks {levels : Nat} {path : List Text} {item : Node}
    (done : size calls levels path item before = .ok (bytes, after))
    (needed : LooksAt path item site) : calls.faults site = none := by
  induction levels generalizing path item before bytes after with
  | zero => cases done
  | succ levels ih =>
      simp only [size, bind_eq_ok] at done
      rcases done with ⟨_, _, _, listed, done⟩
      rcases needed with ⟨below, found, there, looked⟩
      cases below with
      | nil =>
          rw [List.append_nil] at looked
          rcases looked with ⟨impossible, _⟩ | ⟨_, rfl | ⟨impossible, _⟩⟩
          · exact absurd rfl impossible
          · exact attempt_eq_ok.mp listed
          · exact absurd rfl impossible
      | cons name rest =>
          cases item with
          | leaf content => cases there
          | branch mode entries =>
              rw [NamedTree.lookup_branch] at there
              rcases Option.bind_eq_some_iff.mp there with ⟨child, here, inside⟩
              rcases sumEntries_entered done (mem_children.mpr here) with
                ⟨middle, added, later, entered⟩
              rcases entrySize_looks entered with ⟨opened, within⟩
              have spelled : path ++ name :: rest = path ++ [name] ++ rest := by
                rw [List.append_assoc, List.singleton_append]
              rw [spelled] at looked
              -- the entry itself, or what lies below it
              cases rest with
              | nil =>
                  cases inside
                  rw [List.append_nil] at looked
                  rcases looked with ⟨_, rfl⟩ | ⟨branch, rfl | ⟨_, rfl⟩⟩
                  · exact opened
                  · rcases (within branch).2 with ⟨_, inner⟩
                    exact ih inner ⟨[], found, rfl, Or.inr ⟨branch, Or.inl (by simp)⟩⟩
                  · exact (within branch).1
              | cons next rest =>
                  have branch : child.isBranch = true := by
                    cases child with
                    | leaf content => cases inside
                    | branch mode entries => rfl
                  rcases (within branch).2 with ⟨_, inner⟩
                  apply ih inner
                  refine ⟨next :: rest, found, inside, ?_⟩
                  rcases looked with ⟨_, rfl⟩ | ⟨directory, rfl | ⟨_, rfl⟩⟩
                  · exact Or.inl ⟨List.cons_ne_nil _ _, rfl⟩
                  · exact Or.inr ⟨directory, Or.inl rfl⟩
                  · exact Or.inr ⟨directory, Or.inr ⟨List.cons_ne_nil _ _, rfl⟩⟩

/-- A measurement that cannot look at something fails. -/
theorem measure_refused {disk : Node} (needed : LooksAt [] disk site)
    (blocked : calls.faults site ≠ none) : ∃ error, measure calls disk = .error error := by
  cases outcome : measure calls disk with
  | error error => exact ⟨error, rfl⟩
  | ok used =>
      simp only [measure, bind_eq_ok, pure_eq_ok, Prod.exists] at outcome
      rcases outcome with ⟨_, _, bytes, after, sized, _⟩
      exact absurd (size_looks sized needed) blocked

end Looking

/-! ## What a measurement answers -/

/-- The names of one inode lead to one length. -/
def LinksAgree (disk : Node) : Prop :=
  forall key length other, FileOf disk key length -> FileOf disk key other -> length = other

/-- What a measurement answers. -/
theorem measure_weighs {calls : Calls} {disk : Node} {used : Nat} (root : disk.isBranch = true)
    (agree : LinksAgree disk) (measured : measure calls disk = .ok used) :
    Inventory.Weighs (FileOf disk) used := by
  classical
  let weight : FileKey -> Nat := fun key =>
    if held : ∃ length, FileOf disk key length then held.choose else 0
  have weighted : Weighted weight disk := by
    intro key length held
    have found : ∃ length, FileOf disk key length := ⟨length, held⟩
    change length = if held : ∃ length, FileOf disk key length then held.choose else 0
    rw [dif_pos found]
    exact agree key _ _ held found.choose_spec
  simp only [measure, bind_eq_ok, pure_eq_ok, Prod.exists] at measured
  rcases measured with ⟨_, _, bytes, after, sized, rfl⟩
  have sound := size_sound 129 [] disk root weighted _ _ _ sized
  refine ⟨after.seen, weight, ?_, ?_⟩
  · intro key length
    rw [sound.seen]
    constructor
    · intro held
      exact ⟨Or.inr ⟨length, held⟩, weighted key length held⟩
    · rintro ⟨impossible | ⟨other, held⟩, rfl⟩
      · exact absurd impossible (Finset.notMem_empty key)
      · rw [← weighted key other held]
        exact held
  · have total := sound.total
    rw [Finset.sum_empty, Nat.zero_add] at total
    exact total

/-- What is measured is what the files of the root weigh, each inode once and
links not at all.  It does not depend on the order of the directories or on
their names, and a measurement that cannot list a directory, open an entry or
enter a directory that is there does not answer. -/
theorem usage_measured (calls : Calls) (disk : Node) (used : Nat) (root : disk.isBranch = true)
    (agree : LinksAgree disk) (measured : measure calls disk = .ok used) :
    Inventory.Weighs (FileOf disk) used ∧
      (forall (others : Calls) (other : Node) (again : Nat), other.isBranch = true ->
        (forall key length, FileOf other key length ↔ FileOf disk key length) ->
        measure others other = .ok again -> again = used) ∧
      forall (others : Calls) (site : Site), LooksAt [] disk site -> others.faults site ≠ none ->
        ∃ error, measure others disk = .error error := by
  have weighs := measure_weighs root agree measured
  refine ⟨weighs, ?_, fun others site needed blocked => measure_refused needed blocked⟩
  intro others other again branch same remeasured
  have files : FileOf other = FileOf disk :=
    funext (fun key => funext (fun length => propext (same key length)))
  have agreed : LinksAgree other := by
    unfold LinksAgree
    rw [files]
    exact agree
  have second := measure_weighs branch agreed remeasured
  rw [files] at second
  exact second.unique weighs

theorem fileOf_file {stat : Stat} {bytes : List UInt8} {key : FileKey} {length : Nat} :
    FileOf (.leaf (.file stat bytes)) key length ↔ key = stat.key ∧ length = bytes.length := by
  rw [fileOf_leaf]
  constructor
  · rintro ⟨_, _, file, rfl, rfl⟩
    cases file
    exact ⟨rfl, rfl⟩
  · rintro ⟨rfl, rfl⟩
    exact ⟨stat, bytes, rfl, rfl, rfl⟩

theorem not_fileOf_symlink {target : Text} {key : FileKey} {length : Nat} :
    ¬ FileOf (.leaf (.symlink target)) key length := by
  rw [fileOf_leaf]
  rintro ⟨_, _, file, _⟩
  cases file

namespace SharedFile

def other : Stat := { OneRename.stat with ino := 8 }

def docs : List (Text × Node) :=
  [("a.txt".toList, .leaf (.file OneRename.stat [1])),
    ("b.txt".toList, .leaf (.file OneRename.stat [1])),
    ("link".toList, .leaf (.symlink "a.txt".toList))]

/-- Two names of one file, another file and a link. -/
def disk : Node :=
  .branch 0o755 [("docs".toList, .branch 0o755 docs),
    ("c.txt".toList, .leaf (.file other [2, 3]))]

def new : List (Text × Node) := [("d.txt".toList, .leaf (.file other [2, 3]))]

/-- The same two files elsewhere. -/
def moved : Node :=
  .branch 0o755 [("c.txt".toList, .leaf (.file OneRename.stat [1])),
    ("new".toList, .branch 0o755 new)]

/-- The link cannot be opened. -/
def blocked : Calls :=
  { OneRename.calls with
    faults := fun site =>
      if site = .openAt .item ["docs".toList, "link".toList] then some .EACCES else none }

theorem fileOf_disk {key : FileKey} {length : Nat} :
    FileOf disk key length ↔
      key = OneRename.stat.key ∧ length = 1 ∨ key = other.key ∧ length = 2 := by
  have root : children disk = [("docs".toList, .branch 0o755 docs),
      ("c.txt".toList, .leaf (.file other [2, 3]))] := by rfl
  have below : children (.branch 0o755 docs) = docs := by rfl
  unfold disk at root ⊢
  rw [fileOf_branch, root]
  simp only [List.exists_mem_cons_iff, fileOf_branch, below]
  unfold docs
  simp only [List.exists_mem_cons_iff, fileOf_file, not_fileOf_symlink, List.not_mem_nil,
    false_and, exists_false, or_false, or_self, List.length_cons, List.length_nil]

theorem fileOf_moved {key : FileKey} {length : Nat} :
    FileOf moved key length ↔
      key = OneRename.stat.key ∧ length = 1 ∨ key = other.key ∧ length = 2 := by
  have root : children moved = [("c.txt".toList, .leaf (.file OneRename.stat [1])),
      ("new".toList, .branch 0o755 new)] := by rfl
  have below : children (.branch 0o755 new) = new := by rfl
  unfold moved at root ⊢
  rw [fileOf_branch, root]
  simp only [List.exists_mem_cons_iff, fileOf_branch, below]
  unfold new
  simp only [List.exists_mem_cons_iff, fileOf_file, List.not_mem_nil, false_and, exists_false,
    or_false, List.length_cons, List.length_nil]

theorem agree : LinksAgree disk := by
  intro key length again first second
  rcases fileOf_disk.mp first with ⟨rfl, rfl⟩ | ⟨rfl, rfl⟩ <;>
    rcases fileOf_disk.mp second with ⟨same, rfl⟩ | ⟨same, rfl⟩ <;>
    first | rfl | exact absurd same (by decide)

end SharedFile

open SharedFile in
/-- One byte under two names and two bytes more are three, wherever the files
are, and with a link that cannot be opened there is no answer. -/
theorem usage_measured_shared :
    Inventory.Weighs (FileOf disk) 3 ∧
      (forall again, measure OneRename.calls moved = .ok again -> again = 3) ∧
      ∃ error, measure blocked disk = .error error := by
  rcases usage_measured OneRename.calls disk 3 rfl agree rfl with ⟨weighs, elsewhere, refused⟩
  refine ⟨weighs, ?_, ?_⟩
  · intro again measured
    exact elsewhere OneRename.calls moved again rfl
      (fun _ _ => fileOf_moved.trans fileOf_disk.symm) measured
  · apply refused blocked (.openAt .item ["docs".toList, "link".toList])
    · exact ⟨["docs".toList, "link".toList], .leaf (.symlink "a.txt".toList), by rfl,
        Or.inl ⟨List.cons_ne_nil _ _, rfl⟩⟩
    · decide

/-! ## Writing within the quota -/

/-- Outside of what was touched the same leaves are there. -/
theorem Untouched.leaf_iff {paths : List (List Text)} {before after : Node}
    (untouched : Untouched paths before after) {other : List Text} {content : Leaf}
    (outside : forall path, path ∈ paths -> ¬ path <+: other) :
    after.lookup other = some (.leaf content) ↔ before.lookup other = some (.leaf content) := by
  have spelled : forall item : Option Node,
      item = some (.leaf content) ↔ item.map shape = some (.inl content) := by
    intro item
    cases item with
    | none => simp
    | some node => cases node <;> simp [shape]
  rw [spelled, spelled, untouched.shapes other outside]

/-- The root of a tree in which something below the root changed. -/
theorem Untouched.isBranch {paths : List (List Text)} {before after : Node}
    (untouched : Untouched paths before after) (below : forall path, path ∈ paths -> path ≠ []) :
    after.isBranch = before.isBranch := by
  have same := untouched.shapes []
    (fun path listed inside => below path listed (List.prefix_nil.mp inside))
  rw [NamedTree.lookup_nil, NamedTree.lookup_nil] at same
  cases after <;> cases before <;> first | rfl | cases same

/-- Nothing is below nothing. -/
theorem lookup_past_nothing {disk : Node} {path rest : List Text}
    (found : disk.lookup path = none) : disk.lookup (path ++ rest) = none := by
  rw [NamedTree.lookup_append, found]
  rfl

/-- Nothing is below a leaf. -/
theorem lookup_past_leaf {disk : Node} {path rest : List Text} {name : Text} {content : Leaf}
    (found : disk.lookup path = some (.leaf content)) :
    disk.lookup (path ++ name :: rest) = none := by
  rw [NamedTree.lookup_append, found]
  rfl

/-- A request that writes a file, or something that adds no file. -/
inductive RootStep where
  | write (filling : Filling) (config : AppConfig) (request : HelperRequest) (calls closing : Calls)
  | elsewhere (change : Node -> Node)

namespace RootStep

section Steps

variable (uuids : UuidFormat) (codec : TrashCodec) (fingerprint : Stat -> List UInt8 -> Text)
  (archives : Handlers)

/-- A request is executed with what is left of the quota, under the lock that it
was measured under. -/
def step (disk : Node) : RootStep -> Node
  | .write filling config request calls closing =>
      match config.roots.find? (fun root => root.rootId == request.rootId) with
      | none => disk
      | some root =>
          match Reservation.acquire calls root disk with
          | .error _ => disk
          | .ok held =>
              (Context.executeInner uuids codec fingerprint (Context.handlers filling archives)
                ⟨config, request, []⟩ { calls with budget := held.available } closing disk).1
  | .elsewhere change => change disk

/-- A write of a file under a quota.  The kernel gives a new file a new inode,
nothing has the private name, and what is left under it can be removed.  A file
with a link count of one has one name, and the access policy refuses the others,
which would outlive their replacement. -/
structure FileWrite (limit : Nat) (config : AppConfig) (request : HelperRequest)
    (calls closing : Calls) (disk : Node) : Prop where
  staged : request.command.staged = true
  file : request.command.isArchive = false
  plain : forall symbol, symbol ∈ calls.artifact -> uuidSymbol symbol = true
  limited : forall root,
    config.roots.find? (fun root => root.rootId == request.rootId) = some root ->
      root.quotaBytes = some limit
  created : forall length, ¬ FileOf disk calls.created.key length
  private_ : forall staging clean,
    Context.prepare uuids fingerprint ⟨config, request, []⟩ calls disk = .ok (staging, clean) ->
      disk.lookup (segmentNames staging.value) = none ∧
        closing.faults (.remove (segmentNames staging.value)) = none
  refuses : config.accessPolicy.rejectFileHardlinks = true
  linked : forall path stat bytes, disk.lookup path = some (.leaf (.file stat bytes)) ->
    stat.nlink ≤ 1 -> forall other own data,
      disk.lookup other = some (.leaf (.file own data)) -> own.key = stat.key -> other = path

/-- What is done to the root. -/
def Suits (limit : Nat) (disk : Node) : RootStep -> Prop
  | .write _ config request calls closing =>
      FileWrite uuids fingerprint limit config request calls closing disk
  | .elsewhere change => (change disk).isBranch = disk.isBranch ∧
      forall key length, FileOf (change disk) key length -> FileOf disk key length

end Steps

/-- What the files of the root weigh. -/
def Within (bound : Nat) (disk : Node) : Prop :=
  disk.isBranch = true ∧ ∃ used, Inventory.Weighs (FileOf disk) used ∧ used ≤ bound

variable {uuids : UuidFormat} {codec : TrashCodec} {fingerprint : Stat -> List UInt8 -> Text}
  {archives : Handlers} {config : AppConfig} {request : HelperRequest} {calls closing : Calls}
  {disk after : Node} {filling : Filling} {limit used : Nat} {staging clean : RelativePath}

/-- The budget has no part in what is asked of a write. -/
theorem FileWrite.withBudget
    (suits : FileWrite uuids fingerprint limit config request calls closing disk)
    (budget : Option Nat) :
    FileWrite uuids fingerprint limit config request { calls with budget := budget } closing disk :=
  ⟨suits.staged, suits.file, suits.plain, suits.limited, suits.created, suits.private_,
    suits.refuses, suits.linked⟩

/-- Nothing is left of a transaction that failed. -/
theorem fileOf_discarded (discarded : Context.Discarded closing disk after staging clean)
    (removable : closing.faults (.remove (segmentNames staging.value)) = none) {key : FileKey}
    {length : Nat} (held : FileOf after key length) : FileOf disk key length := by
  rcases held with ⟨path, stat, bytes, found, same, measured⟩
  have dropped := discarded.dropped removable
  by_cases inside : segmentNames staging.value <+: path
  · rcases inside with ⟨rest, rfl⟩
    rw [lookup_past_nothing dropped] at found
    cases found
  · refine ⟨path, stat, bytes, ?_, same, measured⟩
    apply (discarded.untouched.leaf_iff _).mp found
    intro other listed
    rw [List.mem_singleton.mp listed]
    exact inside

/-- A file after a transaction that succeeded is the one that was published, or
was there before under another name. -/
theorem fileOf_published {written : Node} {stat : Stat} {bytes : List UInt8}
    (published : Context.Published request.command disk written after staging clean)
    (there : after.lookup (segmentNames clean.value) = some (.leaf (.file stat bytes)))
    {key : FileKey} {length : Nat} (held : FileOf after key length) :
    (key = stat.key ∧ length = bytes.length) ∨
      ∃ path own data, path ≠ segmentNames clean.value ∧
        disk.lookup path = some (.leaf (.file own data)) ∧ own.key = key ∧
          data.length = length := by
  rcases held with ⟨path, own, data, found, same, measured⟩
  by_cases arrived : segmentNames clean.value <+: path
  · rcases arrived with ⟨rest, rfl⟩
    cases rest with
    | nil =>
        rw [List.append_nil, there] at found
        cases found
        exact Or.inl ⟨same.symm, measured.symm⟩
    | cons name rest =>
        rw [lookup_past_leaf there] at found
        cases found
  · by_cases inside : segmentNames staging.value <+: path
    · rcases inside with ⟨rest, rfl⟩
      rw [lookup_past_nothing published.dropped] at found
      cases found
    · refine Or.inr ⟨path, own, data, ?_, ?_, same, measured⟩
      · rintro rfl
        exact arrived (List.prefix_refl _)
      · apply (published.untouched.leaf_iff _).mp found
        intro other listed
        rcases List.mem_cons.mp listed with rfl | listed
        · exact inside
        · rw [List.mem_singleton.mp listed]
          exact arrived

/-- What a write may use again is what it replaces. -/
theorem replaced (suits : FileWrite uuids fingerprint limit config request calls closing disk)
    (weighs : Inventory.Weighs (FileOf disk) used) :
    ∃ kept rest, Inventory.Weighs kept rest ∧
      rest + Context.previousLength ⟨config, request, []⟩ calls disk clean = used ∧
      (forall key length, kept key length -> FileOf disk key length) ∧
      forall path own data, path ≠ segmentNames clean.value ->
        disk.lookup path = some (.leaf (.file own data)) -> kept own.key data.length := by
  have nothing : ∃ kept rest, Inventory.Weighs kept rest ∧ rest + 0 = used ∧
      (forall key length, kept key length -> FileOf disk key length) ∧
      forall path own data, path ≠ segmentNames clean.value ->
        disk.lookup path = some (.leaf (.file own data)) -> kept own.key data.length :=
    ⟨FileOf disk, used, weighs, rfl, fun _ _ held => held,
      fun path own data _ found => ⟨path, own, data, found, rfl, rfl⟩⟩
  unfold Context.previousLength
  split
  · next stat bytes opened =>
      simp only [Context.sandboxOpen, bind_eq_ok, mapError_eq_ok, pure_eq_ok] at opened
      rcases opened with ⟨path, validated, _, _, _, _, node, walked, _, _, _, single, rfl⟩
      rw [(validateRelativePath_eq_ok_iff.mp validated).2, segmentNames_canonicalText] at walked
      have found := walk_eq_ok.mp walked
      have one : stat.nlink ≤ 1 := by
        simp only [Context.checkMetadata, refuse_eq_ok, suits.refuses, Bool.and_true,
          decide_eq_false_iff_not] at single
        exact Nat.le_of_not_lt single
      rcases weighs.erase ⟨_, stat, bytes, found, rfl, rfl⟩ with ⟨rest, less, whole⟩
      refine ⟨_, rest, less, whole, fun _ _ held => held.1, ?_⟩
      intro other own data elsewhere there
      refine ⟨⟨other, own, data, there, rfl, rfl⟩, ?_⟩
      intro same
      exact elsewhere (suits.linked _ stat bytes found one other own data there same)
  · exact nothing

/-- The root of a tree is not what a transaction renames. -/
theorem staging_below (staged : request.command.staged = true)
    (plain : forall symbol, symbol ∈ calls.artifact -> uuidSymbol symbol = true)
    (prepared : Context.prepare uuids fingerprint ⟨config, request, []⟩ calls disk =
      .ok (staging, clean)) :
    segmentNames staging.value ≠ [] ∧ segmentNames clean.value ≠ [] := by
  rcases Context.prepare_beside staged plain prepared with
    ⟨parent, name, other, private_, public_, _⟩
  rw [private_, public_]
  exact ⟨List.concat_ne_nil name parent, List.concat_ne_nil other parent⟩

/-- A transaction under a quota. -/
theorem executeInner_within {outcome : Except Refusal TrashPayload}
    (small : limit ≤ u64Max)
    (suits : FileWrite uuids fingerprint limit config request calls closing disk)
    (branch : disk.isBranch = true) (weighs : Inventory.Weighs (FileOf disk) used)
    (budget : calls.budget = some (limit - used))
    (ran : Context.executeInner uuids codec fingerprint (Context.handlers filling archives)
      ⟨config, request, []⟩ calls closing disk = (after, outcome)) :
    Within (max limit used) after := by
  have reach := @Context.handlers_contained filling archives request.command suits.staged
    suits.file
  cases outcome with
  | error refusal =>
      rcases Context.executeInner_error reach suits.staged suits.plain ran with
        rfl | ⟨staging, clean, prepared, discarded⟩
      · exact ⟨branch, used, weighs, Nat.le_max_right _ _⟩
      · have removable := (suits.private_ staging clean prepared).2
        rcases weighs.shrink (fun key length held => fileOf_discarded discarded removable held) with
          ⟨less, weighs, fewer⟩
        refine ⟨?_, less, weighs, fewer.trans (Nat.le_max_right _ _)⟩
        rw [discarded.untouched.isBranch, branch]
        intro path listed
        rw [List.mem_singleton.mp listed]
        exact (staging_below suits.staged suits.plain prepared).1
  | ok payload =>
      have bounded : request.command = .copy ->
          forall remaining, calls.budget = some remaining -> remaining ≤ u64Max := by
        intro _ remaining given
        rw [budget] at given
        cases given
        exact Nat.le_trans (Nat.sub_le _ _) small
      rcases Context.executeInner_content suits.staged suits.file suits.plain bounded ran with
        ⟨staging, clean, written, stat, bytes, prepared, published, there, _, stored⟩
      have new := stored.inode (suits.private_ staging clean prepared).1
      have fresh : stat.key = calls.created.key := Prod.ext new.1 new.2
      rcases replaced suits weighs with ⟨kept, rest, others, whole, narrower, elsewhere⟩
      have unheld : forall length, ¬ kept stat.key length := by
        intro length held
        rw [fresh] at held
        exact suits.created length (narrower _ _ held)
      have only : forall key length, FileOf after key length ->
          kept key length ∨ key = stat.key ∧ length = bytes.length := by
        intro key length held
        rcases fileOf_published published there held with
          new | ⟨path, own, data, apart, found, rfl, rfl⟩
        · exact Or.inr new
        · exact Or.inl (elsewhere path own data apart found)
      rcases (others.insert unheld bytes.length).shrink only with ⟨total, weighs, fewer⟩
      refine ⟨?_, total, weighs, fewer.trans ?_⟩
      · rw [published.untouched.isBranch, branch]
        intro path listed
        have below := staging_below suits.staged suits.plain prepared
        rcases List.mem_cons.mp listed with rfl | listed
        · exact below.1
        · rw [List.mem_singleton.mp listed]
          exact below.2
      · have available := stored.within
        unfold Context.available at available
        rw [budget, Option.map_some] at available
        have fits := available _ rfl
        unfold saturateU64 at fits
        split at fits <;> omega

/-- A write leaves the root within its quota, or no fuller than it was. -/
theorem write_within {initial : Nat} (small : limit ≤ u64Max)
    (within : Within (max limit initial) disk)
    (suits : FileWrite uuids fingerprint limit config request calls closing disk) :
    Within (max limit initial)
      (step uuids codec fingerprint archives disk
        (.write filling config request calls closing)) := by
  unfold step
  dsimp only
  split
  · exact within
  · next root known =>
      split
      · exact within
      · next held acquired =>
          rcases within with ⟨branch, used, weighs, fits⟩
          unfold Reservation.acquire at acquired
          rw [suits.limited root known] at acquired
          rcases bind_eq_ok.mp acquired with ⟨answer, measured, made⟩
          cases made
          have agree : LinksAgree disk := fun _ _ _ first second => weighs.functional first second
          have same : answer = used := (measure_weighs branch agree measured).unique weighs
          rw [same]
          rcases executeInner_within small (suits.withBudget (some (limit - used))) branch weighs
            rfl rfl with ⟨still, total, weighs, fewer⟩
          refine ⟨still, total, weighs, fewer.trans ?_⟩
          exact max_le (Nat.le_max_left _ _) fits

/-- One step of a root. -/
theorem step_within {initial : Nat} {operation : RootStep} (small : limit ≤ u64Max)
    (within : Within (max limit initial) disk)
    (suits : operation.Suits uuids fingerprint limit disk) :
    Within (max limit initial) (step uuids codec fingerprint archives disk operation) := by
  cases operation with
  | write filling config request calls closing => exact write_within small within suits
  | elsewhere change =>
      rcases within with ⟨branch, used, weighs, fits⟩
      rcases weighs.shrink suits.2 with ⟨less, weighs, fewer⟩
      exact ⟨suits.1.trans branch, less, weighs, fewer.trans fits⟩

end RootStep

/-- Whatever files are written under its quota, a root weighs no more than the
quota, or than it weighed at first when that was more already, and no later
measurement answers more. -/
theorem quota_never_exceeded (uuids : UuidFormat) (codec : TrashCodec)
    (fingerprint : Stat -> List UInt8 -> Text) (archives : Handlers) (limit initial : Nat)
    (disk : Node) (operations : List RootStep) (small : limit ≤ u64Max)
    (root : disk.isBranch = true) (weighs : Inventory.Weighs (FileOf disk) initial)
    (suits : forall visit,
      visit ∈ Runs.visits (RootStep.step uuids codec fingerprint archives) disk operations ->
        visit.2.Suits uuids fingerprint limit visit.1) :
    RootStep.Within (max limit initial)
        (Runs.run (RootStep.step uuids codec fingerprint archives) disk operations) ∧
      forall calls answer,
        measure calls (Runs.run (RootStep.step uuids codec fingerprint archives) disk operations) =
          .ok answer -> answer ≤ max limit initial := by
  have kept : RootStep.Within (max limit initial)
      (Runs.run (RootStep.step uuids codec fingerprint archives) disk operations) := by
    refine Runs.invariant_of_visits (RootStep.Within (max limit initial)) ?_
      ⟨root, initial, weighs, Nat.le_max_right _ _⟩
    intro visit visited within
    exact RootStep.step_within small within (suits visit visited)
  refine ⟨kept, ?_⟩
  intro calls answer measured
  rcases kept with ⟨branch, used, weighs, fits⟩
  have agree : LinksAgree
      (Runs.run (RootStep.step uuids codec fingerprint archives) disk operations) :=
    fun _ _ _ first second => weighs.functional first second
  rw [(measure_weighs branch agree measured).unique weighs]
  exact fits

namespace OneQuota

theorem find_only {name other : Text} {item found : Node}
    (there : Rows.find name [(other, item)] = some found) : other = name ∧ item = found := by
  by_cases same : other = name
  · rw [Rows.find, if_pos same] at there
    exact ⟨same, Option.some.inj there⟩
  · rw [Rows.find, if_neg same] at there
    cases there

/-- The only file is `docs/a.txt`. -/
theorem lookup_file {path : List Text} {content : Leaf}
    (found : OneRename.disk.lookup path = some (.leaf content)) :
    path = ["docs".toList, "a.txt".toList] ∧ content = .file OneRename.stat [1] := by
  cases path with
  | nil => cases found
  | cons first rest =>
      rw [OneRename.disk, NamedTree.lookup_branch] at found
      rcases Option.bind_eq_some_iff.mp found with ⟨docs, here, below⟩
      rcases find_only here with ⟨rfl, rfl⟩
      cases rest with
      | nil => cases below
      | cons second rest =>
          rw [NamedTree.lookup_branch] at below
          rcases Option.bind_eq_some_iff.mp below with ⟨note, here, below⟩
          rcases find_only here with ⟨rfl, rfl⟩
          cases rest with
          | nil =>
              cases below
              exact ⟨rfl, rfl⟩
          | cons third rest => cases below

theorem agree : LinksAgree OneRename.disk := by
  rintro key length other ⟨_, stat, bytes, found, _, rfl⟩ ⟨_, own, data, there, _, rfl⟩
  cases (lookup_file found).2
  cases (lookup_file there).2
  rfl

/-- The home directory may hold two bytes. -/
def config : AppConfig :=
  { OneSave.config with roots := [{ AllowedRoot.standard with quotaBytes := some 2 }] }

def calls : Calls := { OneUpload.calls with created := { OneRename.stat with ino := 8 } }

/-- Two bytes are to be written to `docs/c.txt`. -/
def saving : HelperRequest :=
  { OneTrash.request .writeFile 7 "docs//c.txt".toList with
    writeOptions := some ⟨none, none, [1, 2], 0, true⟩ }

def write (request : HelperRequest) : RootStep :=
  .write OneSave.filling config request calls calls

def step (disk : Node) (operation : RootStep) : Node :=
  operation.step .hyphenated OneRename.codec OneUpload.fingerprint OneSave.archives disk

/-- After the refused write `docs/a.txt` is copied to `docs/b.txt`. -/
def copied : Node := Runs.run step OneRename.disk [write saving, write OneSave.copying]

/-- A request on the only file, by its name and its private name. -/
theorem write_suits {request : HelperRequest} {destination : Text}
    (staged : request.command.staged = true) (file : request.command.isArchive = false)
    (home : request.rootId = OneSave.copying.rootId)
    (computed : Context.prepare .hyphenated OneUpload.fingerprint ⟨config, request, []⟩ calls
      OneRename.disk = .ok (⟨"docs/".toList ++ OneUpload.name⟩, ⟨destination⟩)) :
    RootStep.FileWrite .hyphenated OneUpload.fingerprint 2 config request calls calls
      OneRename.disk where
  staged := staged
  file := file
  plain := OneSave.artifact_plain
  limited := by
    intro root known
    rw [home] at known
    have only : config.roots.find? (fun root => root.rootId == OneSave.copying.rootId) =
        some { AllowedRoot.standard with quotaBytes := some 2 } := by rfl
    rw [← Option.some.inj (only.symm.trans known)]
  created := by
    rintro length ⟨path, stat, bytes, found, same, _⟩
    cases (lookup_file found).2
    exact absurd same (by decide)
  private_ := by
    intro staging clean prepared
    rw [computed] at prepared
    cases prepared
    exact ⟨by rfl, rfl⟩
  refuses := rfl
  linked := fun _ _ _ found _ _ _ _ there _ =>
    (lookup_file there).1.trans (lookup_file found).1.symm

theorem saving_refused : step OneRename.disk (write saving) = OneRename.disk := by rfl

end OneQuota

open OneQuota in
/-- A write beyond the quota changes nothing, and the copy fills the quota. -/
theorem quota_never_exceeded_docs :
    measure calls copied = .ok 2 ∧ RootStep.Within 2 copied := by
  refine ⟨by rfl, ?_⟩
  apply (quota_never_exceeded .hyphenated OneRename.codec OneUpload.fingerprint OneSave.archives 2 1
    OneRename.disk [write saving, write OneSave.copying] (by decide) rfl
    (@measure_weighs OneRename.calls OneRename.disk 1 rfl agree rfl) ?_).1
  intro visit visited
  cases visited with
  | head => exact write_suits rfl rfl rfl (by rfl)
  | tail _ later =>
      change visit ∈ Runs.visits step (step OneRename.disk (write saving))
        [write OneSave.copying] at later
      rw [saving_refused] at later
      cases later with
      | head => exact write_suits rfl rfl rfl (by rfl)
      | tail _ later => cases later

end TealDrive
