import TealDrive.Upload.Views

namespace TealDrive

/-!
# What uploads deliver

Every request keeps every transfer in order, so the invariant of a single view
holds of all of them after any list of operations.  What the log of such a run
says is then read off: what was handed to the helper, who took a record out of
`PENDING`, and which staging files are gone.
-/

namespace Uploads

variable {digest : Bytes -> Text} {id : Uuid} {upload : ActiveUpload}

/-- Every transfer is in order. -/
def Sound (digest : Bytes -> Text) (server : Server) : Prop :=
  forall id, Good digest id none (server.view id)

theorem sound_initial (digest : Bytes -> Text) : Sound digest Server.initial := by
  intro id
  have nobody : forall upload, ¬ Held (Server.initial.view id) none upload := by
    rintro upload (⟨number, found⟩ | ⟨record, found, _⟩ | none_)
    · cases found
    · cases found
    · cases none_
  refine ⟨fun upload has => absurd has (nobody upload), ?_, ?_, ?_,
    fun _ => ⟨rfl, rfl, nobody⟩, fun upload has => absurd has (nobody upload),
    fun _ _ => nobody, fun _ => rfl, ?_, ?_, trivial⟩
  · intro first second upload other found
    cases found
  · intro number upload found
    cases found
  · intro upload none_
    cases none_
  · intro content found
    cases found
  · intro record found
    cases found

variable {server : Server}

/-- A sweep of `PENDING` ends transfers and leaves the others alone. -/
theorem sound_retain (sound : Sound digest server) (keep : Suspended -> Bool)
    (unlinks : Uuid -> Bool) : Sound digest (server.retain keep unlinks) := by
  intro id
  rw [Server.view_retain]
  split
  case isFalse => exact sound id
  case isTrue dropped =>
    rcases Option.any_eq_true _ _ |>.mp dropped with ⟨record, parked, _⟩
    exact ((sound id).unpark parked).close (unlinks id)

theorem client_found {number : Nat} {connection : Connection}
    (client : server.client number = some connection) :
    server.connections.find number = some connection :=
  (Option.filter_eq_some_iff.mp client).1

/-- An identifier is drawn. -/
theorem view_drawn (server : Server) (id other : Uuid) :
    ({ server with used := id :: server.used } : Server).view other =
      if other = id then { server.view other with drawn := true } else server.view other := by
  unfold Server.view
  split
  case isTrue same => simp [same]
  case isFalse different => simp [different]

theorem uploadBeginRequest_ok {username : Text} {request : UploadBeginRequest} {config : AppConfig}
    {calls : BeginCalls} {before after : Option Bytes}
    (begun : uploadBeginRequest username request config id calls before = (.ok upload, after)) :
    after = some [] ∧ upload.transferId = id ∧ upload.bytesReceived = 0 := by
  unfold uploadBeginRequest at begun
  split at begun
  · cases begun
  · split at begun
    · cases begun
    · split at begun
      · split at begun <;> cases begun
        exact ⟨rfl, rfl, rfl⟩
      · cases begun

theorem sound_begin (sound : Sound digest server) (number : Nat) (request : UploadBeginRequest)
    (id : Uuid) (config : AppConfig) (calls : BeginCalls) :
    Sound digest (server.begin_ number request id config calls).2 := by
  unfold Server.begin_
  split
  · exact sound
  · rename_i connection client
    have found := client_found client
    split
    · exact sound
    · rename_i unused
      have undrawn : (server.view id).drawn = false := by simpa [Server.view] using unused
      split
      · rename_i error file _
        have about : Event.id (.ended id file.isNone) = id := rfl
        intro other
        dsimp only
        by_cases here : other = id
        · subst here
          rw [Server.view_note_self about, Server.view_setFile, view_drawn, if_pos rfl, if_pos rfl]
          exact (sound other).refused undrawn file
        · rw [Server.view_note_of_ne (about.trans_ne (Ne.symm here)), Server.view_setFile,
            view_drawn, if_neg here, if_neg here]
          exact sound other
      · rename_i upload file begun
        rcases uploadBeginRequest_ok begun with ⟨rfl, keyed, empty⟩
        have about : Event.id (.began id upload.totalSize upload.sha256) = id := rfl
        intro other
        dsimp only
        have kept : ((({ server with used := id :: server.used } : Server).setFile id
            (some [])).connections.find number) = some connection := found
        by_cases here : other = id
        · subst here
          rw [Server.view_note_self about, Server.view_setUploads kept, Server.view_setFile,
            view_drawn, if_pos rfl, if_pos rfl, Table.find_insert_self]
          exact (sound other).begin_ number undrawn keyed empty
        · rw [Server.view_note_of_ne (about.trans_ne (Ne.symm here)),
            Server.view_setUploads_of_same kept (Table.find_insert_of_ne _ here),
            Server.view_setFile, view_drawn, if_neg here, if_neg here]
          exact sound other

/-- What a chunk does to the upload and its file. -/
theorem uploadChunkRequest_cases (upload : ActiveUpload) (chunk : RawChunk) (config : AppConfig)
    (written : Written) (content : Bytes) :
    (∃ error, uploadChunkRequest upload chunk config written (some content) =
        (.error error, upload, some content)) ∨
      upload.bytesReceived + chunk.chunkBytes.length ≤ upload.totalSize ∧
        ((∃ error stored, uploadChunkRequest upload chunk config written (some content) =
            (.error error, upload, some (Splice.overwrite 0 content upload.bytesReceived
              (chunk.chunkBytes.take stored)))) ∨
          uploadChunkRequest upload chunk config written (some content) =
            (.ok (upload.bytesReceived + chunk.chunkBytes.length),
              { upload with bytesReceived := upload.bytesReceived + chunk.chunkBytes.length },
              some (Splice.overwrite 0 content upload.bytesReceived chunk.chunkBytes))) := by
  unfold uploadChunkRequest
  dsimp only
  split
  · exact Or.inl ⟨_, rfl⟩
  · split
    · exact Or.inl ⟨_, rfl⟩
    · split
      · exact Or.inl ⟨_, rfl⟩
      · rename_i offset
        split
        · exact Or.inl ⟨_, rfl⟩
        · rename_i fits
          rw [Decidable.not_not.mp offset]
          refine Or.inr ⟨Nat.le_of_not_gt fits, ?_⟩
          cases written with
          | all => exact Or.inr rfl
          | failed error stored => exact Or.inl ⟨error, stored, rfl⟩

theorem sound_chunk (sound : Sound digest server) (number : Nat) (chunk : RawChunk)
    (config : AppConfig) (written : Written) :
    Sound digest (server.chunk number chunk config written).2 := by
  unfold Server.chunk
  split
  · exact sound
  · rename_i connection client
    have found := client_found client
    split
    · exact sound
    · rename_i upload has
      have active : (server.view chunk.transferId).active number = some upload :=
        (Server.active_eq found _).trans has
      have lifted := (sound chunk.transferId).lift active
      rcases lifted.staged upload (Or.inr (Or.inr rfl)) with ⟨content, file, _⟩
      have staged : server.files.find chunk.transferId = some content := file
      -- Giving the upload back to its connection is one rewriting of the map.
      have back : forall (file : Option Bytes) (events : List Event) (later : ActiveUpload),
          Good digest chunk.transferId (some later)
            { server.view chunk.transferId with
              file := file
              active := Function.update (server.view chunk.transferId).active number none
              events := events } ->
          Good digest chunk.transferId none
            { server.view chunk.transferId with
              file := file
              active := Function.update (server.view chunk.transferId).active number (some later)
              events := events } := by
        intro file events later good
        have settled := good.settle number
        simpa only [Function.update_idem] using settled
      have touched : forall (file : Option Bytes) (later : ActiveUpload) (other : Uuid),
          ((server.setFile chunk.transferId file).setUploads number
            (connection.uploads.insert chunk.transferId later)).view other =
            if other = chunk.transferId then
              { server.view other with
                file := file
                active := Function.update (server.view other).active number (some later) }
            else server.view other := by
        intro file later other
        have kept : (server.setFile chunk.transferId file).connections.find number =
            some connection := by
          cases file <;> exact found
        by_cases here : other = chunk.transferId
        · subst here
          rw [Server.view_setUploads kept, Server.view_setFile, if_pos rfl, if_pos rfl,
            Table.find_insert_self]
        · rw [Server.view_setUploads_of_same kept (Table.find_insert_of_ne _ here),
            Server.view_setFile, if_neg here, if_neg here]
      rw [staged]
      rcases uploadChunkRequest_cases upload chunk config written content with
        ⟨error, same⟩ | ⟨fits, ⟨error, stored, same⟩ | same⟩
      · rw [same]
        intro other
        dsimp only
        rw [touched]
        split
        case isTrue here =>
          subst here
          exact back _ _ _ (file ▸ lifted)
        case isFalse => exact sound other
      · rw [same]
        intro other
        dsimp only
        rw [touched]
        split
        case isTrue here =>
          subst here
          refine back _ _ _ (lifted.store file ?_)
          rw [List.length_take]
          omega
        case isFalse => exact sound other
      · rw [same]
        have about : Event.id (.accepted chunk.transferId chunk.chunkBytes) = chunk.transferId := rfl
        intro other
        dsimp only
        by_cases here : other = chunk.transferId
        · subst here
          rw [Server.view_note_self about, touched, if_pos rfl]
          exact back _ _ _ (lifted.accept file fits)
        · rw [Server.view_note_of_ne (about.trans_ne (Ne.symm here)), touched, if_neg here]
          exact sound other

/-- The view of a transfer whose record leaves `PENDING`. -/
theorem Server.view_unpark (server : Server) (id other : Uuid) :
    ({ server with pending := server.pending.erase id } : Server).view other =
      if other = id then { server.view other with parked := none } else server.view other := by
  unfold Server.view
  split
  case isTrue same =>
    subst same
    simp [Table.find_erase_self]
  case isFalse different => simp [Table.find_erase_of_ne different]

/-- The view of a transfer whose record enters `PENDING`. -/
theorem Server.view_park (server : Server) (id : Uuid) (record : Suspended) (other : Uuid) :
    ({ server with pending := server.pending.insert id record } : Server).view other =
      if other = id then { server.view other with parked := some record }
      else server.view other := by
  unfold Server.view
  split
  case isTrue same =>
    subst same
    simp [Table.find_insert_self]
  case isFalse different => simp [Table.find_insert_of_ne _ different]

/-- The view of a transfer that is ended alone. -/
theorem Server.view_dispose_self (server : Server) (id : Uuid) (unlinks : Uuid -> Bool) :
    (server.dispose [id] unlinks).view id =
      { server.view id with
        file := unlink (unlinks id) (server.view id).file
        events := .ended id (unlinks id) :: (server.view id).events } := by
  rw [Server.view_dispose (List.nodup_singleton id), if_pos (List.mem_singleton_self id)]

theorem Server.view_dispose_of_ne (server : Server) {id other : Uuid} (unlinks : Uuid -> Bool)
    (different : other ≠ id) : (server.dispose [id] unlinks).view other = server.view other := by
  rw [Server.view_dispose (List.nodup_singleton id), if_neg (by simpa using different)]

/-- All transfers are in order but one, which is in hand. -/
def SoundBut (digest : Bytes -> Text) (id : Uuid) (upload : ActiveUpload) (server : Server) : Prop :=
  Good digest id (some upload) (server.view id) ∧
    forall other, other ≠ id -> Good digest other none (server.view other)

theorem SoundBut.dispose (sound : SoundBut digest id upload server) (unlinks : Uuid -> Bool) :
    Sound digest (server.dispose [id] unlinks) := by
  intro other
  by_cases here : other = id
  · subst here
    rw [Server.view_dispose_self]
    exact sound.1.close (unlinks other)
  · rw [Server.view_dispose_of_ne _ _ here]
    exact sound.2 other here

/-- A connection gives an upload up. -/
theorem Sound.lift (sound : Sound digest server) {number : Nat} {connection : Connection}
    (found : server.connections.find number = some connection)
    (has : connection.uploads.find id = some upload) :
    SoundBut digest id upload (server.setUploads number (connection.uploads.erase id)) := by
  constructor
  · rw [Server.view_setUploads found, Table.find_erase_self]
    exact (sound id).lift ((Server.active_eq found id).trans has)
  · intro other different
    rw [Server.view_setUploads_of_same found (Table.find_erase_of_ne different)]
    exact sound other

theorem Sound.keyed (sound : Sound digest server) {number : Nat} {connection : Connection}
    (found : server.connections.find number = some connection)
    (has : connection.uploads.find id = some upload) : upload.transferId = id :=
  (sound id).keyed upload (Or.inl ⟨number, (Server.active_eq found id).trans has⟩)

theorem uploadEndRequest_handed {username : Text} {uid gid requestId : Nat}
    {request : UploadEndRequest} {config : AppConfig} {calls : EndCalls} {file : Option Bytes}
    {result : Except TealDriveError UploadEndResponse} {helper : HelperRequest} {content : Bytes}
    (ran : uploadEndRequest digest username uid gid requestId upload request config calls file =
      (result, some (helper, content))) :
    file = some content ∧ content.length = upload.totalSize ∧
      upload.bytesReceived = upload.totalSize ∧
      forall declared, upload.sha256 = some declared ->
        eqIgnoreAsciiCase (digest content) declared = true := by
  unfold uploadEndRequest at ran
  split at ran
  · cases ran
  · rename_i staged verified checked
    split at ran
    · cases ran
      exact checkStaged_ok digest checked
    · cases ran

theorem sound_finish (sound : Sound digest server) (number : Nat) (request : UploadEndRequest)
    (requestId : Nat) (config : AppConfig) (calls : EndCalls) :
    Sound digest (server.finish digest number request requestId config calls).2 := by
  unfold Server.finish
  split
  · exact sound
  · rename_i connection client
    have found := client_found client
    split
    · exact sound
    · rename_i upload has
      have lifted := sound.lift found has
      have keyed := sound.keyed found has
      dsimp only
      rw [keyed]
      split
      · exact lifted.dispose _
      · rename_i result helper content ran
        rcases uploadEndRequest_handed ran with ⟨file, length, whole, hash⟩
        have about : Event.id (.handed request.transferId content result.isOk) =
            request.transferId := rfl
        have handed : SoundBut digest request.transferId upload
            ((server.setUploads number (connection.uploads.erase request.transferId)).note
              (.handed request.transferId content result.isOk)) := by
          constructor
          · rw [Server.view_note_self about]
            exact lifted.1.hand_ result.isOk file length whole hash
          · intro other different
            rw [Server.view_note_of_ne (about.trans_ne (Ne.symm different))]
            exact lifted.2 other different
        exact handed.dispose _

theorem sound_abortUpload (sound : SoundBut digest id upload server)
    (keyed : upload.transferId = id) (unlinks : Bool) :
    Sound digest (server.abortUpload upload id unlinks).2 := by
  unfold Server.abortUpload
  rw [if_neg (by simp [keyed]), keyed]
  exact sound.dispose _

/-- A connection gets the upload in hand. -/
theorem SoundBut.settle (sound : SoundBut digest id upload server) {number : Nat}
    {connection : Connection} (found : server.connections.find number = some connection) :
    Sound digest (server.setUploads number (connection.uploads.insert id upload)) := by
  intro other
  by_cases here : other = id
  · subst here
    rw [Server.view_setUploads found, Table.find_insert_self]
    exact sound.1.settle number
  · rw [Server.view_setUploads_of_same found (Table.find_insert_of_ne _ here)]
    exact sound.2 other here

/-- The record of a transfer leaves `PENDING` to be looked at. -/
theorem Sound.unpark (sound : Sound digest server) {record : Suspended}
    (parked : server.pending.find id = some record) :
    SoundBut digest id record.upload { server with pending := server.pending.erase id } := by
  constructor
  · rw [Server.view_unpark, if_pos rfl]
    exact (sound id).unpark parked
  · intro other different
    rw [Server.view_unpark, if_neg different]
    exact sound other

/-- The record of a transfer leaves `PENDING` for its owner. -/
theorem Sound.claim (sound : Sound digest server) {record : Suspended}
    (parked : server.pending.find id = some record) :
    SoundBut digest id record.upload
      ({ server with pending := server.pending.erase id }.note (.taken id record.who)) := by
  have about : Event.id (.taken id record.who) = id := rfl
  constructor
  · rw [Server.view_note_self about, Server.view_unpark, if_pos rfl]
    exact (sound id).claim parked
  · intro other different
    rw [Server.view_note_of_ne (about.trans_ne (Ne.symm different)), Server.view_unpark,
      if_neg different]
    exact sound other

theorem sound_abort (sound : Sound digest server) (number : Nat) (id : Uuid) (unlinks : Bool) :
    Sound digest (server.abort number id unlinks).2 := by
  unfold Server.abort
  split
  · exact sound
  · rename_i connection client
    have found := client_found client
    split
    · rename_i upload has
      exact sound_abortUpload (sound.lift found has) (sound.keyed found has) unlinks
    · unfold Server.takeForAbort
      cases parked : server.pending.find id with
      | none => exact sound
      | some record =>
          dsimp only
          split
          · rename_i taken
            split at taken <;> cases taken
            exact sound
          · rename_i upload after taken
            split at taken
            · cases taken
            · rename_i owner
              cases taken
              have same : record.who = connection.who := Decidable.not_not.mp owner
              rw [← same]
              have keyed : record.upload.transferId = id :=
                (sound id).keyed record.upload (Or.inr (Or.inl ⟨record, parked, rfl⟩))
              exact sound_abortUpload (sound.claim parked) keyed unlinks

theorem sound_resume (sound : Sound digest server) (number : Nat) (id : Uuid) (config : AppConfig)
    (calls : Server.ResumeCalls) :
    Sound digest (server.resume digest number id config calls).2 := by
  unfold Server.resume
  split
  · exact sound
  · rename_i connection client
    have found := client_found client
    unfold Server.take
    split
    · rename_i error after taken
      split at taken
      · cases taken
        exact sound
      · have swept := sound_retain sound server.unexpired calls.unlinks
        dsimp only at taken
        split at taken
        · cases taken
          exact swept
        · rename_i record parked
          split at taken
          · cases taken
            exact swept
          · split at taken
            · cases taken
              exact (swept.unpark parked).dispose calls.unlinks
            · cases taken
    · rename_i upload response after taken
      split at taken
      · cases taken
      · have swept := sound_retain sound server.unexpired calls.unlinks
        dsimp only at taken
        split at taken
        · cases taken
        · rename_i record parked
          split at taken
          · cases taken
          · rename_i owner
            split at taken
            · cases taken
            · cases taken
              have same : record.who = connection.who := Decidable.not_not.mp owner
              have claimed := swept.claim parked
              have keyed : record.upload.transferId = id :=
                (swept id).keyed record.upload (Or.inr (Or.inl ⟨record, parked, rfl⟩))
              rw [same] at claimed
              rw [keyed]
              exact claimed.settle found

theorem SoundBut.retain (sound : SoundBut digest id upload server) (keep : Suspended -> Bool)
    (unlinks : Uuid -> Bool) : SoundBut digest id upload (server.retain keep unlinks) := by
  constructor
  · have unparked : server.pending.find id = none := sound.1.inHand upload rfl
    rw [Server.view_retain, unparked]
    exact sound.1
  · intro other different
    rw [Server.view_retain]
    split
    case isFalse => exact sound.2 other different
    case isTrue dropped =>
      rcases Option.any_eq_true _ _ |>.mp dropped with ⟨record, parked, _⟩
      exact ((sound.2 other different).unpark parked).close (unlinks other)

theorem sound_suspend (sound : SoundBut digest id upload server) (keyed : upload.transferId = id)
    (who : Identity) (seconds : Nat) (unlinks : Uuid -> Bool) :
    Sound digest (server.suspend who upload seconds unlinks) := by
  have swept := sound.retain server.unexpired unlinks
  unfold Server.suspend
  dsimp only
  rw [keyed]
  split
  · have about : Event.id (.suspended id who) = id := rfl
    intro other
    by_cases here : other = id
    · subst here
      rw [Server.view_note_self about, Server.view_park, if_pos rfl]
      exact swept.1.park who _
    · rw [Server.view_note_of_ne (about.trans_ne (Ne.symm here)), Server.view_park, if_neg here]
      exact swept.2 other here
  · exact swept.dispose unlinks

theorem sound_part (sound : Sound digest server) (number : Nat) (id : Uuid) (seconds : Nat)
    (draining : Bool) (unlinks : Uuid -> Bool) :
    Sound digest (server.part number id seconds draining unlinks) := by
  unfold Server.part
  split
  · exact sound
  · rename_i connection found
    split
    · rename_i upload _ has
      have lifted := sound.lift found has
      have keyed := sound.keyed found has
      dsimp only
      split
      · exact sound_suspend lifted keyed connection.who seconds unlinks
      · rw [keyed]
        exact lifted.dispose unlinks
    · exact sound

theorem sound_connect (sound : Sound digest server) (number : Nat) (who : Identity) :
    Sound digest (server.connect number who) := by
  unfold Server.connect
  split
  · exact sound
  · rename_i absent
    intro id
    have same : ({ server with
        connections := server.connections.insert number
          { who := who, live := true, uploads := Table.empty } } : Server).view id =
        server.view id := by
      unfold Server.view
      congr 1
      funext other
      by_cases here : other = number
      · subst here
        simp [Table.find_insert_self, absent]
      · simp [Table.find_insert_of_ne _ here]
    rw [same]
    exact sound id

theorem sound_close (sound : Sound digest server) (number : Nat) :
    Sound digest (server.close number) := by
  intro id
  have same : (server.close number).view id = server.view id := by
    unfold Server.view Server.close
    congr 1
    funext other
    by_cases here : other = number
    · subst here
      rw [Table.find_modify_self]
      cases server.connections.find other <;> rfl
    · simp [Table.find_modify_of_ne _ here]
  rw [same]
  exact sound id

theorem sound_step (operation : Operation) (sound : Sound digest server) :
    Sound digest (step digest server operation) := by
  cases operation with
  | connect number who => exact sound_connect sound number who
  | clock now => exact sound
  | begin_ number request id config calls => exact sound_begin sound number request id config calls
  | chunk number chunk config written => exact sound_chunk sound number chunk config written
  | finish number request requestId config calls =>
      exact sound_finish sound number request requestId config calls
  | abort number id unlinks => exact sound_abort sound number id unlinks
  | resume number id config calls => exact sound_resume sound number id config calls
  | close number => exact sound_close sound number
  | part number id seconds draining unlinks =>
      exact sound_part sound number id seconds draining unlinks
  | purge session unlinks => exact sound_retain sound _ unlinks
  | clear unlinks => exact sound_retain sound _ unlinks

theorem sound_run (digest : Bytes -> Text) (operations : List Operation) :
    Sound digest (Runs.run (step digest) Server.initial operations) :=
  Runs.invariant (Sound digest) (fun _ operation sound => sound_step operation sound)
    (sound_initial digest) operations

/-! ## Whole logs -/

theorem received_filter (id : Uuid) (log : List Event) :
    received id (log.filter (fun event => event.id == id)) = received id log := by
  induction log with
  | nil => rfl
  | cons event log ih =>
      by_cases mine : event.id = id
      · rw [List.filter_cons_of_pos (by simpa using mine)]
        cases event <;> simp only [received, ih]
      · rw [List.filter_cons_of_neg (by simpa using mine), ih]
        cases event with
        | accepted other data => simp [received, show other ≠ id from mine]
        | began other totalSize sha256 => rfl
        | suspended other who => rfl
        | taken other who => rfl
        | handed other content succeeded => rfl
        | ended other unlinked => rfl

theorem declared_filter (id : Uuid) (log : List Event) :
    declared id (log.filter (fun event => event.id == id)) = declared id log := by
  induction log with
  | nil => rfl
  | cons event log ih =>
      by_cases mine : event.id = id
      · rw [List.filter_cons_of_pos (by simpa using mine)]
        cases event <;> simp only [declared, ih]
      · rw [List.filter_cons_of_neg (by simpa using mine), ih]
        cases event with
        | began other totalSize sha256 => simp [declared, show other ≠ id from mine]
        | accepted other data => rfl
        | suspended other who => rfl
        | taken other who => rfl
        | handed other content succeeded => rfl
        | ended other unlinked => rfl

theorem waiting_filter (id : Uuid) (who : Identity) (log : List Event) :
    Waiting id who (log.filter (fun event => event.id == id)) ↔ Waiting id who log := by
  apply History.since_filter
  · rintro event rfl
    simp [Event.id]
  · rintro event ⟨any, rfl⟩
    simp [Event.id]

/-- What an event of the whole log goes back to. -/
theorem Sound.justified (sound : Sound digest server) {later earlier : List Event} {event : Event}
    (split : server.log = later ++ event :: earlier) : Justified digest event earlier := by
  have parts : (server.view event.id).events =
      later.filter (fun other => other.id == event.id) ++
        event :: earlier.filter (fun other => other.id == event.id) := by
    simp [Server.view, split]
  have mine := (sound event.id).history.split parts
  cases event with
  | handed id content succeeded =>
      rcases mine with ⟨same, totalSize, sha256, size, length, hash⟩
      change content = received id (earlier.filter (fun event => event.id == id)) at same
      change declared id (earlier.filter (fun event => event.id == id)) = _ at size
      rw [received_filter] at same
      rw [declared_filter] at size
      exact ⟨same, totalSize, sha256, size, length, hash⟩
  | taken id who => exact (waiting_filter id who earlier).mp mine
  | began id totalSize sha256 => trivial
  | accepted id data => trivial
  | suspended id who => trivial
  | ended id unlinked => trivial

/-! ## Requests that end a transfer -/

/-- Whether the removal of the staging file works in an operation. -/
def Operation.unlinks : Operation -> Uuid -> Bool
  | .finish _ _ _ _ calls, _ => calls.unlinks
  | .abort _ _ unlinks, _ => unlinks
  | .resume _ _ _ calls, id => calls.unlinks id
  | .part _ _ _ _ unlinks, id => unlinks id
  | .purge _ unlinks, id => unlinks id
  | .clear unlinks, id => unlinks id
  | _, _ => false

/-- The operation ends the transfer: an end or abort of whoever has it, a resume
that found the record of the caller and is refused, a closed connection that
does not keep it, or a sweep for its session or its time. -/
def Concludes (digest : Bytes -> Text) (server : Server) (id : Uuid) : Operation -> Prop
  | .finish number request _ _ _ =>
      request.transferId = id ∧ ∃ connection upload, server.client number = some connection ∧
        connection.uploads.find id = some upload
  | .abort number other _ =>
      other = id ∧ ∃ connection, server.client number = some connection ∧
        ((∃ upload, connection.uploads.find id = some upload) ∨
          ∃ record, server.pending.find id = some record ∧ record.who = connection.who)
  | .resume number other config calls =>
      other = id ∧ config.systemStorage.uploadResumeSeconds ≠ 0 ∧
        (∃ connection record, server.client number = some connection ∧
          server.pending.find id = some record ∧ record.who = connection.who) ∧
        ∃ error, (server.resume digest number other config calls).1 = .error error
  | .part number other seconds draining _ =>
      other = id ∧ ∃ connection upload, server.connections.find number = some connection ∧
        connection.live = false ∧ connection.uploads.find id = some upload ∧
        Server.retained upload seconds draining = false
  | .purge session _ =>
      ∃ record, server.pending.find id = some record ∧
        (record.expires ≤ server.now ∨ session = some record.who.session)
  | .clear _ => ∃ record, server.pending.find id = some record
  | _ => False

theorem ended_dispose (server : Server) (id : Uuid) (unlinks : Uuid -> Bool) :
    .ended id (unlinks id) ∈ (server.dispose [id] unlinks).log := by
  simp [Server.dispose]

theorem ended_retain {keep : Suspended -> Bool} {record : Suspended}
    (found : server.pending.find id = some record) (dropped : keep record = false)
    (unlinks : Uuid -> Bool) : .ended id (unlinks id) ∈ (server.retain keep unlinks).log := by
  unfold Server.retain Server.dispose
  refine List.mem_append_left _ (List.mem_map.mpr ⟨id, ?_, rfl⟩)
  refine List.mem_map.mpr ⟨(id, record), List.mem_filter.mpr ⟨?_, by simp [dropped]⟩, rfl⟩
  exact Table.find_eq_some_iff.mp found

theorem concludes_finish (sound : Sound digest server) {number : Nat} {connection : Connection}
    (request : UploadEndRequest) (requestId : Nat) (config : AppConfig) (calls : EndCalls)
    (client : server.client number = some connection)
    (has : connection.uploads.find request.transferId = some upload) :
    .ended request.transferId calls.unlinks ∈
      (server.finish digest number request requestId config calls).2.log := by
  have keyed := sound.keyed (client_found client) has
  unfold Server.finish
  simp only [client, has, keyed]
  split
  · exact ended_dispose _ _ (fun _ => calls.unlinks)
  · exact ended_dispose _ _ (fun _ => calls.unlinks)

theorem concludes_abort (sound : Sound digest server) {number : Nat} {connection : Connection}
    (client : server.client number = some connection) (unlinks : Bool)
    (mine : (∃ upload, connection.uploads.find id = some upload) ∨
      ∃ record, server.pending.find id = some record ∧ record.who = connection.who) :
    .ended id unlinks ∈ (server.abort number id unlinks).2.log := by
  unfold Server.abort
  simp only [client]
  split
  · rename_i upload has
    have keyed := sound.keyed (client_found client) has
    unfold Server.abortUpload
    rw [if_neg (by simp [keyed]), keyed]
    exact ended_dispose _ _ (fun _ => unlinks)
  · rename_i absent
    rcases mine with ⟨upload, has⟩ | ⟨record, parked, owner⟩
    · rw [absent] at has
      cases has
    · have keyed : record.upload.transferId = id :=
        (sound id).keyed record.upload (Or.inr (Or.inl ⟨record, parked, rfl⟩))
      simp only [Server.takeForAbort, parked, owner, ne_eq, not_true_eq_false, if_false]
      unfold Server.abortUpload
      rw [if_neg (by simp [keyed]), keyed]
      exact ended_dispose _ _ (fun _ => unlinks)

theorem concludes_resume {number : Nat} {connection : Connection} {record : Suspended}
    {config : AppConfig} {calls : Server.ResumeCalls}
    (enabled : config.systemStorage.uploadResumeSeconds ≠ 0)
    (client : server.client number = some connection)
    (parked : server.pending.find id = some record) (owner : record.who = connection.who)
    {error : TealDriveError}
    (refused : (server.resume digest number id config calls).1 = .error error) :
    .ended id (calls.unlinks id) ∈ (server.resume digest number id config calls).2.log := by
  unfold Server.resume at refused ⊢
  simp only [client] at refused ⊢
  unfold Server.take at refused ⊢
  rw [if_neg enabled] at refused ⊢
  dsimp only at refused ⊢
  have still : (server.retain server.unexpired calls.unlinks).pending.find id =
      (server.pending.find id).filter server.unexpired := Table.find_filter _ _ id
  rw [still, parked] at refused ⊢
  cases lasting : server.unexpired record with
  | false =>
      -- The sweep at the start of `take` has dropped the record.
      simp only [Option.filter_some, lasting, Bool.false_eq_true, if_false]
      exact ended_retain parked lasting calls.unlinks
  | true =>
      simp only [Option.filter_some, lasting, if_true, owner, ne_eq, not_true_eq_false,
        if_false] at refused ⊢
      split at refused
      · rename_i failure after taken
        dsimp only
        split at taken
        · cases taken
          exact ended_dispose _ _ calls.unlinks
        · cases taken
      · cases refused

theorem concludes_part (sound : Sound digest server) {number : Nat} {connection : Connection}
    {seconds : Nat} {draining : Bool}
    (found : server.connections.find number = some connection) (closed : connection.live = false)
    (has : connection.uploads.find id = some upload)
    (given_up : Server.retained upload seconds draining = false) (unlinks : Uuid -> Bool) :
    .ended id (unlinks id) ∈ (server.part number id seconds draining unlinks).log := by
  have keyed := sound.keyed found has
  unfold Server.part
  simp only [found, closed, has, given_up, Bool.false_eq_true, if_false, keyed]
  exact ended_dispose _ _ unlinks

theorem concludes_ended (sound : Sound digest server) {operation : Operation}
    (concludes : Concludes digest server id operation) :
    .ended id (operation.unlinks id) ∈ (step digest server operation).log := by
  cases operation with
  | finish number request requestId config calls =>
      rcases concludes with ⟨rfl, connection, upload, client, has⟩
      exact concludes_finish sound request requestId config calls client has
  | abort number other unlinks =>
      rcases concludes with ⟨rfl, connection, client, mine⟩
      exact concludes_abort sound client unlinks mine
  | resume number other config calls =>
      rcases concludes with ⟨rfl, enabled, ⟨connection, record, client, parked, owner⟩, error, refused⟩
      exact concludes_resume enabled client parked owner refused
  | part number other seconds draining unlinks =>
      rcases concludes with ⟨rfl, connection, upload, found, closed, has, given_up⟩
      exact concludes_part sound found closed has given_up unlinks
  | purge session unlinks =>
      rcases concludes with ⟨record, parked, reason⟩
      refine ended_retain parked ?_ unlinks
      rcases reason with expired | named
      · simp [Server.unexpired, expired]
      · simp [named]
  | clear unlinks =>
      rcases concludes with ⟨record, parked⟩
      exact ended_retain parked rfl unlinks
  | connect number who => exact absurd concludes (by simp [Concludes])
  | clock now => exact absurd concludes (by simp [Concludes])
  | begin_ number request other config calls => exact absurd concludes (by simp [Concludes])
  | chunk number chunk config written => exact absurd concludes (by simp [Concludes])
  | close number => exact absurd concludes (by simp [Concludes])

/-- An end request that succeeds has handed something over. -/
theorem finish_handed {number : Nat} {request : UploadEndRequest} {requestId : Nat}
    {config : AppConfig} {calls : EndCalls} {response : UploadEndResponse}
    (sound : Sound digest server)
    (succeeded : (server.finish digest number request requestId config calls).1 = .ok response) :
    ∃ content, (server.finish digest number request requestId config calls).2.log =
      .ended request.transferId calls.unlinks :: .handed request.transferId content true ::
        server.log := by
  unfold Server.finish at succeeded ⊢
  split at succeeded
  · cases succeeded
  · rename_i connection client
    split at succeeded
    · cases succeeded
    · rename_i upload has
      have keyed := sound.keyed (client_found client) has
      dsimp only at succeeded ⊢
      split at succeeded
      · rename_i result ran
        unfold uploadEndRequest at ran
        dsimp only at succeeded
        split at ran
        · cases ran
          cases succeeded
        · split at ran
          · cases ran
          · cases ran
            cases succeeded
      · rename_i result helper content ran
        dsimp only at succeeded
        subst succeeded
        simp only [keyed]
        exact ⟨content, rfl⟩

/-- Where an upload is. -/
def Server.Holds (server : Server) (id : Uuid) (upload : ActiveUpload) : Prop :=
  (∃ number connection, server.connections.find number = some connection ∧
      connection.uploads.find id = some upload) ∨
    ∃ record, server.pending.find id = some record ∧ record.upload = upload

theorem held_of_holds {upload : ActiveUpload} (holds : server.Holds id upload) :
    Held (server.view id) none upload := by
  rcases holds with ⟨number, connection, found, has⟩ | ⟨record, found, same⟩
  · exact Or.inl ⟨number, (Server.active_eq found id).trans has⟩
  · exact Or.inr (Or.inl ⟨record, found, same⟩)

/-- What holds of uploads in a state of the server.

`staged`: the staging file starts with the acknowledged chunks in order, and
neither they nor the file exceed the declared size.

`handed`, `delivered`: the helper is only ever given exactly the acknowledged
chunks, of the declared size and with the hash declared at the begin, and an end
request that succeeds has just given them.

`taken`, `resumes`, `aborts`: a record is taken out of `PENDING` by the identity
that was suspended with it, and only once.

`gone`, `concluded`: a transfer that has ended has no staging file, if the
removal worked, and ends, aborts, refused resumes of the owner and sweeps do
end transfers. -/
structure Delivers (digest : Bytes -> Text) (server : Server) : Prop where
  staged : forall id upload, server.Holds id upload ->
    ∃ content, server.files.find id = some content ∧
      content.take upload.bytesReceived = received id server.log ∧
      (received id server.log).length = upload.bytesReceived ∧
      upload.bytesReceived ≤ upload.totalSize ∧ content.length ≤ upload.totalSize
  handed : forall later id content succeeded earlier,
    server.log = later ++ .handed id content succeeded :: earlier ->
    content = received id earlier ∧
      ∃ totalSize sha256, declared id earlier = some (totalSize, sha256) ∧
        content.length = totalSize ∧
        forall hash, sha256 = some hash -> eqIgnoreAsciiCase (digest content) hash = true
  delivered : forall number request requestId config calls response,
    (server.finish digest number request requestId config calls).1 = .ok response ->
    ∃ content, (server.finish digest number request requestId config calls).2.log =
      .ended request.transferId calls.unlinks :: .handed request.transferId content true ::
        server.log
  taken : forall later id who earlier, server.log = later ++ .taken id who :: earlier ->
    Waiting id who earlier
  resumes : forall who id config calls result,
    (server.take digest who id config calls).1 = .ok result ->
    ∃ earlier, (server.take digest who id config calls).2.log = .taken id who :: earlier
  aborts : forall who id result, (server.takeForAbort who id).1 = .ok result ->
    (server.takeForAbort who id).2.log = .taken id who :: server.log
  gone : forall id, .ended id true ∈ server.log ->
    server.files.find id = none ∧ forall upload, ¬ server.Holds id upload
  concluded : forall id operation, Concludes digest server id operation ->
    .ended id (operation.unlinks id) ∈ (step digest server operation).log

theorem resume_taken {who : Identity} {config : AppConfig} {calls : Server.ResumeCalls}
    {result : ActiveUpload × UploadResumeResponse}
    (succeeded : (server.take digest who id config calls).1 = .ok result) :
    ∃ earlier, (server.take digest who id config calls).2.log = .taken id who :: earlier := by
  unfold Server.take at succeeded ⊢
  split at succeeded
  · cases succeeded
  · rename_i enabled
    rw [if_neg enabled]
    dsimp only at succeeded ⊢
    split at succeeded
    · cases succeeded
    · rename_i record parked
      split at succeeded
      · cases succeeded
      · rename_i owner
        rw [if_neg owner]
        split at succeeded
        · cases succeeded
        · rename_i response checked
          exact ⟨_, rfl⟩

/-- Whatever clients send, and whatever file operations fail, uploads deliver
exactly the acknowledged bytes. -/
theorem uploads_deliver (digest : Bytes -> Text) (operations : List Operation) :
    Delivers digest (Runs.run (step digest) Server.initial operations) := by
  have sound := sound_run digest operations
  generalize Runs.run (step digest) Server.initial operations = server at sound
  refine ⟨?_, ?_, ?_, ?_, ?_, ?_, ?_, ?_⟩
  · intro id upload holds
    rcases (sound id).staged upload (held_of_holds holds) with
      ⟨content, file, start, length, small, _⟩
    have same : received id (server.view id).events = received id server.log :=
      received_filter id server.log
    rw [same] at start length
    refine ⟨content, file, start, length, ?_, small⟩
    have short := congrArg List.length start
    rw [length, List.length_take] at short
    omega
  · intro later id content succeeded earlier split
    exact sound.justified split
  · intro number request requestId config calls response succeeded
    exact finish_handed sound succeeded
  · intro later id who earlier split
    exact sound.justified split
  · intro who id config calls result succeeded
    exact resume_taken succeeded
  · intro who id result succeeded
    unfold Server.takeForAbort at succeeded ⊢
    split at succeeded
    · cases succeeded
    · split at succeeded
      · cases succeeded
      · rename_i record parked owner
        rw [if_neg owner]
        rfl
  · intro id ended
    have mine : .ended id true ∈ (server.view id).events :=
      List.mem_filter.mpr ⟨ended, by simp [Event.id]⟩
    refine ⟨(sound id).gone mine, ?_⟩
    intro upload holds
    exact (sound id).finished true mine upload (held_of_holds holds)
  · intro id operation concludes
    exact concludes_ended sound concludes

/-! ## A resume of somebody else -/

namespace Reconnect

/-- `alice` in one of her browser sessions. -/
def alice (session : Uuid) : Identity := ⟨session, "alice".toList, 1000, 1000⟩

def request : UploadBeginRequest where
  retainOnDisconnect := true
  rootId := ⟨"home".toList⟩
  relativePath := ⟨[]⟩
  filename := "resumed.txt".toList
  totalSize := 10
  chunkSize := 4
  sha256 := none

/-- An upload of four bytes is suspended; then another session connects. -/
def operations : List Operation :=
  [.connect 0 (alice 1),
    .begin_ 0 request 7 AppConfig.standard ⟨.ok (), true, .ok (), true⟩,
    .chunk 0 ⟨7, 0, [115, 97, 109, 101]⟩ AppConfig.standard .all,
    .close 0,
    .part 0 7 60 false (fun _ => true),
    .connect 1 (alice 2)]

def calls : Server.ResumeCalls := ⟨true, true, true, true, fun _ => true⟩

/-- The server then. -/
def reconnected : Server :=
  Runs.run (step (fun _ => [])) Server.initial operations

end Reconnect

/-- A refused resume does not always remove the staging file.  When another
session asks, the file stays for the session it belongs to. -/
theorem foreign_resume_keeps_staging :
    ¬ forall (operations : List Operation) (number : Nat) (id : Uuid) (config : AppConfig)
      (calls : Server.ResumeCalls),
      let server := Runs.run (step (fun _ => [])) Server.initial operations
      calls.unlinks id = true ->
        (server.resume (fun _ => []) number id config calls).1.isOk = false ->
          (server.resume (fun _ => []) number id config calls).2.files.find id = none := by
  intro claim
  have refused : (Reconnect.reconnected.resume (fun _ => []) 1 7 AppConfig.standard
      Reconnect.calls).1.isOk = false := by
    decide
  have left : (Reconnect.reconnected.resume (fun _ => []) 1 7 AppConfig.standard
      Reconnect.calls).2.files.find 7 = some [115, 97, 109, 101] := by
    decide
  have none_ := claim Reconnect.operations 1 7 AppConfig.standard Reconnect.calls rfl refused
  exact absurd (left.symm.trans none_) (by decide)

end Uploads

end TealDrive
