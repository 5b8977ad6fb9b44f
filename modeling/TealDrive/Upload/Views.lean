import TealDrive.Upload.Server

namespace TealDrive

/-!
# Single transfers

Transfers do not touch each other.  What a server knows of one transfer, its
staging file, the connection or record that has it and the events about it, is
its view.  Every request changes the view of one transfer, except for the sweep
of `PENDING`, which ends transfers one by one.  The invariant is a property of
a single view.

Within a request an upload may for a moment be with neither a connection nor
`PENDING`.  The view then has it in hand.
-/

namespace Uploads

variable (digest : Bytes -> Text)

/-- One transfer. -/
@[ext]
structure View where
  file : Option Bytes
  active : Nat -> Option ActiveUpload
  parked : Option Suspended
  drawn : Bool
  events : List Event

def Server.view (server : Server) (id : Uuid) : View where
  file := server.files.find id
  active := fun number =>
    (server.connections.find number).bind (fun connection => connection.uploads.find id)
  parked := server.pending.find id
  drawn := server.used.contains id
  events := server.log.filter (fun event => event.id == id)

/-- The upload is with a connection, in `PENDING`, or in hand. -/
def Held (view : View) (hand : Option ActiveUpload) (upload : ActiveUpload) : Prop :=
  (∃ number, view.active number = some upload) ∨
    (∃ record, view.parked = some record ∧ record.upload = upload) ∨ hand = some upload

/-- The staging file starts with the acknowledged chunks and is no longer than
declared. -/
def Staged (id : Uuid) (view : View) (upload : ActiveUpload) : Prop :=
  ∃ content, view.file = some content ∧
    content.take upload.bytesReceived = received id view.events ∧
    (received id view.events).length = upload.bytesReceived ∧
    content.length ≤ upload.totalSize ∧
    declared id view.events = some (upload.totalSize, upload.sha256)

/-- The record of a transfer has been put into `PENDING` for somebody and not
been taken out since. -/
def Waiting (id : Uuid) (who : Identity) (log : List Event) : Prop :=
  History.Since (fun event => event = .suspended id who) (fun event => ∃ any, event = .taken id any)
    log

/-- What must have happened before an event. -/
def Justified : Event -> List Event -> Prop
  | .handed id content _, earlier =>
      content = received id earlier ∧
        ∃ totalSize sha256, declared id earlier = some (totalSize, sha256) ∧
          content.length = totalSize ∧
          forall hash, sha256 = some hash -> eqIgnoreAsciiCase (digest content) hash = true
  | .taken id who, earlier => Waiting id who earlier
  | _, _ => True

structure Good (id : Uuid) (hand : Option ActiveUpload) (view : View) : Prop where
  keyed : forall upload, Held view hand upload -> upload.transferId = id
  alone : forall first second upload other, view.active first = some upload ->
    view.active second = some other -> first = second
  apart : forall number upload, view.active number = some upload ->
    view.parked = none ∧ hand = none
  inHand : forall upload, hand = some upload -> view.parked = none
  fresh : view.drawn = false -> view.file = none ∧ view.events = [] ∧
    forall upload, ¬ Held view hand upload
  staged : forall upload, Held view hand upload -> Staged id view upload
  finished : forall unlinked, .ended id unlinked ∈ view.events -> forall upload, ¬ Held view hand upload
  gone : .ended id true ∈ view.events -> view.file = none
  kept : forall content, view.file = some content ->
    (∃ upload, Held view hand upload) ∨ .ended id false ∈ view.events
  waiting : forall record, view.parked = some record -> Waiting id record.who view.events
  history : History.Throughout (Justified digest) view.events

variable {digest} {id : Uuid} {view : View} {hand : Option ActiveUpload} {upload : ActiveUpload}

/-! ## One transfer -/

/-- A transfer that is drawn for the first time has nobody and nothing yet. -/
theorem Good.begin_ (good : Good digest id none view) (number : Nat) (unused : view.drawn = false)
    (keyed : upload.transferId = id) (empty : upload.bytesReceived = 0) :
    Good digest id none
      { view with
        file := some []
        active := Function.update view.active number (some upload)
        drawn := true
        events := .began id upload.totalSize upload.sha256 :: view.events } := by
  rcases good.fresh unused with ⟨_, silent, nobody⟩
  have inactive : forall other, view.active other = none := by
    intro other
    cases found : view.active other with
    | none => rfl
    | some any => exact absurd (Or.inl ⟨other, found⟩) (nobody any)
  have unparked : view.parked = none := by
    cases found : view.parked with
    | none => rfl
    | some record => exact absurd (Or.inr (Or.inl ⟨record, found, rfl⟩)) (nobody record.upload)
  have only : forall other any,
      Function.update view.active number (some upload) other = some any ->
        other = number ∧ any = upload := by
    intro other any found
    by_cases here : other = number
    · subst here
      rw [Function.update_self] at found
      exact ⟨rfl, (Option.some.inj found).symm⟩
    · rw [Function.update_of_ne here, inactive] at found
      cases found
  have held : forall any, Held
      { view with
        file := some []
        active := Function.update view.active number (some upload)
        drawn := true
        events := .began id upload.totalSize upload.sha256 :: view.events } none any ->
      any = upload := by
    rintro any (⟨other, found⟩ | ⟨record, found, _⟩ | hand)
    · exact (only other any found).2
    · change view.parked = some record at found
      rw [unparked] at found
      cases found
    · cases hand
  refine ⟨?_, ?_, ?_, ?_, ?_, ?_, ?_, ?_, ?_, ?_, ?_⟩
  · intro any has
    rw [held any has]
    exact keyed
  · intro first second one other found again
    rw [(only first one found).1, (only second other again).1]
  · intro other any _
    exact ⟨unparked, rfl⟩
  · intro any none_
    cases none_
  · intro undrawn
    cases undrawn
  · intro any has
    rw [held any has]
    refine ⟨[], rfl, ?_, ?_, Nat.zero_le _, ?_⟩
    · simp [received, silent]
    · simp [received, silent, empty]
    · simp [declared]
  · intro unlinked ended
    simp [silent] at ended
  · intro ended
    simp [silent] at ended
  · intro content _
    exact Or.inl ⟨upload, Or.inl ⟨number, Function.update_self _ _ _⟩⟩
  · intro record found
    change view.parked = some record at found
    rw [unparked] at found
    cases found
  · exact ⟨trivial, good.history⟩

/-- The upload changes hands and nothing else happens to it. -/
theorem Good.move {moved : View} {next : Option ActiveUpload} (good : Good digest id hand view)
    (held : forall upload, Held moved next upload ↔ Held view hand upload)
    (some_ : Held view hand upload)
    (file : moved.file = view.file) (drawn : moved.drawn = view.drawn)
    (alone : forall first second upload other, moved.active first = some upload ->
      moved.active second = some other -> first = second)
    (apart : forall number upload, moved.active number = some upload ->
      moved.parked = none ∧ next = none)
    (inHand : forall upload, next = some upload -> moved.parked = none)
    (bytes : received id moved.events = received id view.events)
    (size : declared id moved.events = declared id view.events)
    (ended : forall unlinked, .ended id unlinked ∈ moved.events ↔ .ended id unlinked ∈ view.events)
    (waiting : forall record, moved.parked = some record -> Waiting id record.who moved.events)
    (history : History.Throughout (Justified digest) moved.events) :
    Good digest id next moved where
  keyed := fun upload has => good.keyed upload ((held upload).mp has)
  alone := alone
  apart := apart
  inHand := inHand
  fresh := by
    intro undrawn
    rw [drawn] at undrawn
    exact absurd some_ ((good.fresh undrawn).2.2 upload)
  staged := by
    intro any has
    rcases good.staged any ((held any).mp has) with ⟨content, there, start, length, small, same⟩
    refine ⟨content, file.trans there, ?_, ?_, small, ?_⟩
    · rw [bytes]
      exact start
    · rw [bytes]
      exact length
    · rw [size]
      exact same
  finished := by
    intro unlinked done any has
    exact good.finished unlinked ((ended unlinked).mp done) any ((held any).mp has)
  gone := by
    intro done
    rw [file]
    exact good.gone ((ended true).mp done)
  kept := by
    intro content _
    exact Or.inl ⟨upload, (held upload).mpr some_⟩
  waiting := waiting
  history := history

/-- A connection gives up the upload. -/
theorem Good.lift (good : Good digest id none view) {number : Nat}
    (active : view.active number = some upload) :
    Good digest id (some upload)
      { view with active := Function.update view.active number none } := by
  have others : forall other, Function.update view.active number none other = none := by
    intro other
    by_cases here : other = number
    · rw [here, Function.update_self]
    · rw [Function.update_of_ne here]
      cases found : view.active other with
      | none => rfl
      | some any => exact absurd (good.alone other number any upload found active) here
  have unparked := (good.apart number upload active).1
  refine good.move ?_ (Or.inl ⟨number, active⟩) rfl rfl ?_ ?_ ?_ rfl rfl (fun _ => Iff.rfl)
    ?_ good.history
  · intro any
    constructor
    · rintro (⟨other, found⟩ | ⟨record, found, _⟩ | same)
      · change Function.update view.active number none other = some any at found
        rw [others] at found
        cases found
      · change view.parked = some record at found
        rw [unparked] at found
        cases found
      · cases same
        exact Or.inl ⟨number, active⟩
    · rintro (⟨other, found⟩ | ⟨record, found, _⟩ | same)
      · have same := good.alone other number any upload found active
        rw [same, active] at found
        exact Or.inr (Or.inr found)
      · rw [unparked] at found
        cases found
      · cases same
  · intro first second one other found
    change Function.update view.active number none first = some one at found
    rw [others] at found
    cases found
  · intro other any found
    change Function.update view.active number none other = some any at found
    rw [others] at found
    cases found
  · intro _ _
    exact unparked
  · intro record found
    change view.parked = some record at found
    rw [unparked] at found
    cases found

theorem Good.inactive (good : Good digest id (some upload) view) (number : Nat) :
    view.active number = none := by
  cases found : view.active number with
  | none => rfl
  | some any => cases (good.apart number any found).2

/-- A connection gets the upload. -/
theorem Good.settle (good : Good digest id (some upload) view) (number : Nat) :
    Good digest id none
      { view with active := Function.update view.active number (some upload) } := by
  have unparked := good.inHand upload rfl
  have only : forall other any,
      Function.update view.active number (some upload) other = some any ->
        other = number ∧ any = upload := by
    intro other any found
    by_cases here : other = number
    · subst here
      rw [Function.update_self] at found
      exact ⟨rfl, (Option.some.inj found).symm⟩
    · rw [Function.update_of_ne here, good.inactive] at found
      cases found
  refine good.move ?_ (Or.inr (Or.inr rfl)) rfl rfl ?_ ?_ ?_ rfl rfl (fun _ => Iff.rfl) ?_
    good.history
  · intro any
    constructor
    · rintro (⟨other, found⟩ | ⟨record, found, _⟩ | same)
      · rw [(only other any found).2]
        exact Or.inr (Or.inr rfl)
      · change view.parked = some record at found
        rw [unparked] at found
        cases found
      · cases same
    · rintro (⟨other, found⟩ | ⟨record, found, _⟩ | same)
      · rw [good.inactive] at found
        cases found
      · rw [unparked] at found
        cases found
      · cases same
        exact Or.inl ⟨number, Function.update_self _ _ _⟩
  · intro first second one other found again
    rw [(only first one found).1, (only second other again).1]
  · intro _ _ _
    exact ⟨unparked, rfl⟩
  · intro any none_
    cases none_
  · intro record found
    change view.parked = some record at found
    rw [unparked] at found
    cases found

theorem Good.unheld (good : Good digest id none view) {record : Suspended}
    (parked : view.parked = some record) (number : Nat) : view.active number = none := by
  cases found : view.active number with
  | none => rfl
  | some any =>
      rw [(good.apart number any found).1] at parked
      cases parked

theorem Good.heldParked (good : Good digest id none view) {record : Suspended}
    (parked : view.parked = some record) (events : List Event) (any : ActiveUpload) :
    Held { view with parked := none, events := events } (some record.upload) any ↔
      Held view none any := by
  constructor
  · rintro (⟨other, found⟩ | ⟨_, found, _⟩ | same)
    · exact Or.inl ⟨other, found⟩
    · cases found
    · cases same
      exact Or.inr (Or.inl ⟨record, parked, rfl⟩)
  · rintro (⟨other, found⟩ | ⟨other, found, same⟩ | same)
    · rw [good.unheld parked] at found
      cases found
    · rw [parked] at found
      cases found
      cases same
      exact Or.inr (Or.inr rfl)
    · cases same

/-- The record leaves `PENDING`, to be looked at. -/
theorem Good.unpark (good : Good digest id none view) {record : Suspended}
    (parked : view.parked = some record) :
    Good digest id (some record.upload) { view with parked := none } := by
  refine good.move (good.heldParked parked view.events) (Or.inr (Or.inl ⟨record, parked, rfl⟩))
    rfl rfl good.alone ?_ (fun _ _ => rfl) rfl rfl (fun _ => Iff.rfl) ?_ good.history
  · intro number any found
    exact absurd found (by simp [good.unheld parked])
  · intro other found
    cases found

/-- The record leaves `PENDING` and is taken over. -/
theorem Good.claim (good : Good digest id none view) {record : Suspended}
    (parked : view.parked = some record) :
    Good digest id (some record.upload)
      { view with parked := none, events := .taken id record.who :: view.events } := by
  refine good.move (good.heldParked parked _) (Or.inr (Or.inl ⟨record, parked, rfl⟩)) rfl rfl
    good.alone ?_ (fun _ _ => rfl) rfl rfl ?_ ?_ ⟨good.waiting record parked, good.history⟩
  · intro number any found
    exact absurd found (by simp [good.unheld parked])
  · intro unlinked
    simp
  · intro other found
    cases found

/-- The upload is put into `PENDING`. -/
theorem Good.park (good : Good digest id (some upload) view) (who : Identity) (expires : Nat) :
    Good digest id none
      { view with
        parked := some { who := who, expires := expires, upload := upload }
        events := .suspended id who :: view.events } := by
  refine good.move ?_ (Or.inr (Or.inr rfl)) rfl rfl good.alone ?_ ?_ rfl rfl ?_ ?_
    ⟨trivial, good.history⟩
  · intro any
    constructor
    · rintro (⟨other, found⟩ | ⟨record, found, same⟩ | same)
      · exact Or.inl ⟨other, found⟩
      · cases found
        cases same
        exact Or.inr (Or.inr rfl)
      · cases same
    · rintro (⟨other, found⟩ | ⟨record, found, same⟩ | same)
      · exact Or.inl ⟨other, found⟩
      · rw [good.inHand upload rfl] at found
        cases found
      · cases same
        exact Or.inr (Or.inl ⟨_, rfl, rfl⟩)
  · intro number any found
    exact absurd found (by simp [good.inactive])
  · intro any none_
    cases none_
  · intro unlinked
    simp
  · intro record found
    cases found
    exact History.since_cons.mpr (Or.inl rfl)

/-- The content is handed to the helper. -/
theorem Good.hand_ (good : Good digest id (some upload) view) {content : Bytes} (succeeded : Bool)
    (file : view.file = some content) (length : content.length = upload.totalSize)
    (whole : upload.bytesReceived = upload.totalSize)
    (hash : forall declared, upload.sha256 = some declared ->
      eqIgnoreAsciiCase (digest content) declared = true) :
    Good digest id (some upload)
      { view with events := .handed id content succeeded :: view.events } := by
  rcases good.staged upload (Or.inr (Or.inr rfl)) with ⟨same, there, start, _, _, size⟩
  rw [file] at there
  cases there
  have all : content = received id view.events := by
    rw [← start, whole, ← length, List.take_length]
  refine good.move (fun _ => Iff.rfl) (Or.inr (Or.inr rfl)) rfl rfl good.alone good.apart
    good.inHand rfl rfl ?_ ?_ ⟨⟨all, _, _, size, length, hash⟩, good.history⟩
  · intro unlinked
    simp
  · intro record found
    change view.parked = some record at found
    rw [good.inHand upload rfl] at found
    cases found

/-- The transfer is over and its file goes, unless that fails. -/
theorem Good.close (good : Good digest id (some upload) view) (unlinks : Bool) :
    Good digest id none
      { view with
        file := unlink unlinks view.file
        events := .ended id unlinks :: view.events } := by
  have unparked := good.inHand upload rfl
  have nobody : forall any, ¬ Held
      { view with
        file := unlink unlinks view.file
        events := .ended id unlinks :: view.events } none any := by
    rintro any (⟨other, found⟩ | ⟨record, found, _⟩ | same)
    · change view.active other = some any at found
      rw [good.inactive] at found
      cases found
    · change view.parked = some record at found
      rw [unparked] at found
      cases found
    · cases same
  have held : Held view (some upload) upload := Or.inr (Or.inr rfl)
  refine ⟨fun any has => absurd has (nobody any), good.alone, ?_, ?_, ?_,
    fun any has => absurd has (nobody any), fun _ _ => nobody, ?_, ?_, ?_, ⟨trivial, good.history⟩⟩
  · intro number any found
    exact ⟨unparked, rfl⟩
  · intro any none_
    cases none_
  · intro undrawn
    exact absurd held ((good.fresh undrawn).2.2 upload)
  · intro done
    rcases List.mem_cons.mp done with same | earlier
    · cases same
      rfl
    · exact absurd held (good.finished true earlier upload)
  · intro content left
    refine Or.inr ?_
    cases unlinks with
    | true => cases left
    | false => exact List.mem_cons_self
  · intro record found
    change view.parked = some record at found
    rw [unparked] at found
    cases found

/-- A begin that fails leaves no file, or one that could not be removed. -/
theorem Good.refused (good : Good digest id none view) (unused : view.drawn = false)
    (file : Option Bytes) :
    Good digest id none
      { view with
        file := file
        drawn := true
        events := .ended id file.isNone :: view.events } := by
  rcases good.fresh unused with ⟨_, silent, nobody⟩
  have still : forall any, ¬ Held
      { view with
        file := file
        drawn := true
        events := .ended id file.isNone :: view.events } none any := by
    rintro any (⟨other, found⟩ | ⟨record, found, same⟩ | none_)
    · exact nobody any (Or.inl ⟨other, found⟩)
    · exact nobody any (Or.inr (Or.inl ⟨record, found, same⟩))
    · cases none_
  refine ⟨fun any has => absurd has (still any), good.alone, good.apart, good.inHand, ?_,
    fun any has => absurd has (still any), fun _ _ => still, ?_, ?_, ?_, ⟨trivial, good.history⟩⟩
  · intro undrawn
    cases undrawn
  · intro done
    simp only [silent, List.mem_singleton, Event.ended.injEq, true_and] at done
    exact Option.isNone_iff_eq_none.mp done.symm
  · intro content left
    change file = some content at left
    rw [left]
    exact Or.inr List.mem_cons_self
  · intro record found
    exact absurd (Or.inr (Or.inl ⟨record, found, rfl⟩)) (nobody record.upload)

/-- Bytes are stored behind the acknowledged ones. -/
theorem Good.store (good : Good digest id (some upload) view) {content data : Bytes}
    (file : view.file = some content)
    (fits : upload.bytesReceived + data.length ≤ upload.totalSize) :
    Good digest id (some upload)
      { view with file := some (Splice.overwrite 0 content upload.bytesReceived data) } := by
  rcases good.staged upload (Or.inr (Or.inr rfl)) with ⟨same, there, start, length, small, size⟩
  rw [file] at there
  cases there
  have inside : upload.bytesReceived ≤ content.length := by
    have short := congrArg List.length start
    rw [length, List.length_take] at short
    omega
  have only : forall any, Held
      { view with file := some (Splice.overwrite 0 content upload.bytesReceived data) }
        (some upload) any -> Held view (some upload) any := fun any has => has
  refine ⟨fun any has => good.keyed any (only any has), good.alone, good.apart, good.inHand, ?_,
    ?_, fun unlinked done any has => good.finished unlinked done any (only any has), ?_, ?_,
    good.waiting, good.history⟩
  · intro undrawn
    exact absurd (Or.inr (Or.inr rfl)) ((good.fresh undrawn).2.2 upload)
  · intro any has
    have this : any = upload := by
      rcases has with ⟨other, found⟩ | ⟨record, found, _⟩ | same
      · exact absurd found (by simp [good.inactive])
      · exact absurd found (by simp [good.inHand upload rfl])
      · exact (Option.some.inj same).symm
    rw [this]
    refine ⟨_, rfl, ?_, length, ?_, size⟩
    · rw [Splice.take_overwrite inside]
      exact start
    · rw [Splice.length_overwrite inside]
      omega
  · intro done
    exact absurd (Or.inr (Or.inr rfl)) (good.finished true done upload)
  · intro _ _
    exact Or.inl ⟨upload, Or.inr (Or.inr rfl)⟩

/-- A chunk is acknowledged. -/
theorem Good.accept (good : Good digest id (some upload) view) {content data : Bytes}
    (file : view.file = some content)
    (fits : upload.bytesReceived + data.length ≤ upload.totalSize) :
    Good digest id (some { upload with bytesReceived := upload.bytesReceived + data.length })
      { view with
        file := some (Splice.overwrite 0 content upload.bytesReceived data)
        events := .accepted id data :: view.events } := by
  rcases good.staged upload (Or.inr (Or.inr rfl)) with ⟨same, there, start, length, small, size⟩
  rw [file] at there
  cases there
  have inside : upload.bytesReceived ≤ content.length := by
    have short := congrArg List.length start
    rw [length, List.length_take] at short
    omega
  have unparked := good.inHand upload rfl
  have held : Held view (some upload) upload := Or.inr (Or.inr rfl)
  have only : forall any, Held
      { view with
        file := some (Splice.overwrite 0 content upload.bytesReceived data)
        events := .accepted id data :: view.events }
        (some { upload with bytesReceived := upload.bytesReceived + data.length }) any ->
      any = { upload with bytesReceived := upload.bytesReceived + data.length } := by
    rintro any (⟨other, found⟩ | ⟨record, found, _⟩ | same)
    · exact absurd found (by simp [good.inactive])
    · exact absurd found (by simp [unparked])
    · exact (Option.some.inj same).symm
  refine ⟨?_, good.alone, ?_, fun _ _ => unparked, ?_, ?_, ?_, ?_, ?_, ?_, ⟨trivial, good.history⟩⟩
  · intro any has
    rw [only any has]
    exact good.keyed upload held
  · intro number any found
    exact absurd found (by simp [good.inactive])
  · intro undrawn
    exact absurd held ((good.fresh undrawn).2.2 upload)
  · intro any has
    rw [only any has]
    refine ⟨_, rfl, ?_, ?_, ?_, size⟩
    · rw [Splice.take_overwrite_end inside, start]
      simp [received]
    · simp [received, length]
    · rw [Splice.length_overwrite inside]
      dsimp only
      omega
  · intro unlinked done
    have earlier : .ended id unlinked ∈ view.events := by simpa using done
    exact absurd held (good.finished unlinked earlier upload)
  · intro done
    have earlier : .ended id true ∈ view.events := by simpa using done
    exact absurd held (good.finished true earlier upload)
  · intro _ _
    exact Or.inl ⟨_, Or.inr (Or.inr rfl)⟩
  · intro record found
    exact absurd found (by simp [unparked])

/-! ## Views of a server -/

namespace Server

theorem view_note_self {server : Server} {event : Event} {id : Uuid} (same : event.id = id) :
    (server.note event).view id =
      { server.view id with events := event :: (server.view id).events } := by
  unfold view note
  simp [same]

theorem view_note_of_ne {server : Server} {event : Event} {id : Uuid} (different : event.id ≠ id) :
    (server.note event).view id = server.view id := by
  unfold view note
  simp [different]

theorem view_setFile (server : Server) (id : Uuid) (file : Option Bytes) (other : Uuid) :
    (server.setFile id file).view other =
      if other = id then { server.view other with file := file } else server.view other := by
  unfold view
  cases file with
  | none =>
      split
      case isTrue same =>
        subst same
        simp [setFile, Table.find_erase_self]
      case isFalse different => simp [setFile, Table.find_erase_of_ne different]
  | some content =>
      split
      case isTrue same =>
        subst same
        simp [setFile, Table.find_insert_self]
      case isFalse different => simp [setFile, Table.find_insert_of_ne _ different]

theorem view_setUploads {server : Server} {number : Nat} {connection : Connection}
    (found : server.connections.find number = some connection)
    (uploads : Table Uuid ActiveUpload) (id : Uuid) :
    (server.setUploads number uploads).view id =
      { server.view id with
        active := Function.update (server.view id).active number (uploads.find id) } := by
  unfold view setUploads
  congr 1
  funext other
  by_cases same : other = number
  · subst same
    simp [Table.find_modify_self, found]
  · simp [Table.find_modify_of_ne _ same, Function.update_of_ne same]

/-- A connection that keeps its upload of an identifier. -/
theorem view_setUploads_of_same {server : Server} {number : Nat} {connection : Connection}
    (found : server.connections.find number = some connection)
    {uploads : Table Uuid ActiveUpload} {id : Uuid}
    (same : uploads.find id = connection.uploads.find id) :
    (server.setUploads number uploads).view id = server.view id := by
  rw [view_setUploads found, same]
  have kept : connection.uploads.find id = (server.view id).active number := by
    simp [view, found]
  rw [kept, Function.update_eq_self]

theorem active_eq {server : Server} {number : Nat} {connection : Connection}
    (found : server.connections.find number = some connection) (id : Uuid) :
    (server.view id).active number = connection.uploads.find id := by
  simp [view, found]

theorem filter_ended (ids : List Uuid) (unique : ids.Nodup) (unlinks : Uuid -> Bool) (id : Uuid) :
    (ids.map (fun id => Event.ended id (unlinks id))).filter (fun event => event.id == id) =
      if id ∈ ids then [.ended id (unlinks id)] else [] := by
  induction ids with
  | nil => rfl
  | cons first rest ih =>
      have parts := List.nodup_cons.mp unique
      rw [List.map_cons, List.filter_cons, ih parts.2]
      change (if (first == id) = true then _ else _) = _
      by_cases here : first = id
      · subst here
        simp [parts.1]
      · simp [here, Ne.symm here]

theorem view_dispose {server : Server} {ids : List Uuid} (unique : ids.Nodup)
    (unlinks : Uuid -> Bool) (id : Uuid) :
    (server.dispose ids unlinks).view id =
      if id ∈ ids then
        { server.view id with
          file := unlink (unlinks id) (server.view id).file
          events := .ended id (unlinks id) :: (server.view id).events }
      else server.view id := by
  unfold view dispose
  simp only [List.filter_append, filter_ended ids unique, Table.find_filter]
  split
  case isTrue member =>
    congr 1
    cases works : unlinks id with
    | true => cases server.files.find id <;> simp [unlink, member]
    | false => cases server.files.find id <;> simp [unlink]
  case isFalse outside => cases server.files.find id <;> simp [outside]

/-- `PENDING` loses a record, or not. -/
theorem view_retain (server : Server) (keep : Suspended -> Bool) (unlinks : Uuid -> Bool)
    (id : Uuid) :
    (server.retain keep unlinks).view id =
      if (server.pending.find id).any (fun record => !keep record) then
        { server.view id with
          parked := none
          file := unlink (unlinks id) (server.view id).file
          events := .ended id (unlinks id) :: (server.view id).events }
      else server.view id := by
  have listed : id ∈ (server.pending.rows.filter (fun row => !keep row.2)).map Prod.fst ↔
      (server.pending.find id).any (fun record => !keep record) = true := by
    rw [List.mem_map, Option.any_eq_true]
    constructor
    · rintro ⟨row, member, rfl⟩
      rcases List.mem_filter.mp member with ⟨present, dropped⟩
      exact ⟨row.2, Table.find_eq_some_iff.mpr present, dropped⟩
    · rintro ⟨record, found, dropped⟩
      exact ⟨(id, record), List.mem_filter.mpr ⟨Table.find_eq_some_iff.mp found, dropped⟩, rfl⟩
  have unique : ((server.pending.rows.filter (fun row => !keep row.2)).map Prod.fst).Nodup :=
    (List.Sublist.map Prod.fst List.filter_sublist).nodup server.pending.unique
  unfold retain
  rw [view_dispose unique]
  have pending : (server.pending.filter (fun _ record => keep record)).find id =
      (server.pending.find id).filter keep := Table.find_filter _ _ id
  by_cases dropped : (server.pending.find id).any (fun record => !keep record) = true
  · rw [if_pos (listed.mpr dropped), if_pos dropped]
    unfold view
    rw [pending]
    cases found : server.pending.find id with
    | none => rfl
    | some record => simpa [found] using dropped
  · rw [if_neg (fun member => dropped (listed.mp member)), if_neg dropped]
    unfold view
    rw [pending]
    cases found : server.pending.find id with
    | none => rfl
    | some record => simpa [found] using dropped

end Server

end Uploads

end TealDrive
