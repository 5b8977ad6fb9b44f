import TealDrive.Helper.Extract

namespace TealDrive

open Outcome

/-!
# How much an extraction writes

A zip entry is written through a reader that stops one byte past what is left,
and what was written is added up.  A tar entry is written to its end, and what
its header declares is added up beforehand, modulo 2^64.  A zip archive
therefore stays within its limit; a tar archive does when its declared sizes
cover its streams, for as long as they stay within the limit themselves.
-/

/-! ## Copying -/

section Copy

variable {stop : Nat -> Option (Nat × IoError)} {take budget : Option Nat} {broken : Bool}

theorem streamOf_nil_cons (rest : List (List UInt8)) : streamOf ([] :: rest) = [] := rfl

theorem streamOf_cons {piece : List UInt8} (filled : piece ≠ []) (rest : List (List UInt8)) :
    streamOf (piece :: rest) = piece ++ streamOf rest := by
  have kept : (piece != []) = true := bne_iff_ne.mpr filled
  rw [streamOf, List.takeWhile_cons, kept, if_pos rfl, List.flatten_cons]
  rfl

theorem length_take_piece (limit : Nat) (written piece : List UInt8)
    (within : written.length ≤ limit) :
    (written ++ piece.take (limit - written.length)).length ≤ limit := by
  rw [List.length_append, List.length_take]
  omega

/-- A limited reader never gives more than its limit. -/
theorem copy_length_le (limit index : Nat) (written : List UInt8) (pieces : List (List UInt8))
    (within : written.length ≤ limit) :
    (copy stop (some limit) budget broken index written pieces).1.length ≤ limit := by
  induction pieces generalizing index written with
  | nil =>
      unfold copy
      split <;> exact within
  | cons piece rest ih =>
      unfold copy
      dsimp only
      split
      · exact within
      · split
        · exact within
        · split
          · next count error _ =>
              rw [List.length_append, List.length_take, List.length_take]
              omega
          · exact ih _ _ (length_take_piece limit written piece within)

/-- A copy that succeeds has come to the end of the stream, or to its limit. -/
theorem copy_complete (index : Nat) (written : List UInt8) (pieces : List (List UInt8))
    (bytes : List UInt8)
    (done : copy stop take budget broken index written pieces = (bytes, .ok ())) :
    bytes = written ++ streamOf pieces ∨ ∃ limit, take = some limit ∧ limit ≤ bytes.length := by
  induction pieces generalizing index written with
  | nil =>
      left
      unfold copy at done
      split at done
      · cases done
        exact (List.append_nil _).symm
      · have same := congrArg Prod.fst done
        exact same.symm.trans (List.append_nil _).symm
  | cons piece rest ih =>
      unfold copy at done
      cases take with
      | none =>
          dsimp only at done
          split at done
          · next empty =>
              cases done
              rw [empty, streamOf_nil_cons, List.append_nil]
              exact .inl rfl
          · next filled =>
              split at done
              · cases done
              · split at done
                · cases done
                · rw [streamOf_cons filled, ← List.append_assoc]
                  exact ih _ _ done
      | some limit =>
          dsimp only at done
          split at done
          · next empty =>
              cases done
              rcases List.take_eq_nil_iff.mp empty with full | nothing
              · exact .inr ⟨limit, rfl, by omega⟩
              · rw [nothing, streamOf_nil_cons, List.append_nil]
                exact .inl rfl
          · next filled =>
              split at done
              · cases done
              · split at done
                · cases done
                · rcases ih _ _ done with whole | full
                  · by_cases short : piece.length ≤ limit - written.length
                    · have some : piece ≠ [] := by
                        rintro rfl
                        exact filled List.take_nil
                      rw [List.take_of_length_le short] at whole
                      rw [streamOf_cons some, ← List.append_assoc]
                      exact .inl whole
                    · right
                      refine ⟨limit, rfl, ?_⟩
                      rw [whole]
                      simp only [List.length_append, List.length_take]
                      omega
                  · exact .inr full

end Copy

/-! ## Content -/

/-- The file that an entry names, and its whole content. -/
def zipContent (target : RelativePath) (entry : Option ZipEntry) :
    Option (List Text × List UInt8) :=
  entry.bind (fun entry =>
    if entry.isLink || entry.isDir then none
    else entry.enclosedName.map (fun name =>
      (segmentNames target.value ++ segmentNames name, streamOf entry.pieces)))

def tarContent (target : RelativePath) (entry : Option TarEntry) :
    Option (List Text × List UInt8) :=
  entry.bind (fun entry =>
    match entry.kind, entry.path with
    | .file, .ok name => some (segmentNames target.value ++ segmentNames name, streamOf entry.pieces)
    | _, _ => none)

/-- Every file entry that is not a link, with its whole content. -/
def Archive.content (target : RelativePath) : Archive -> List (List Text × List UInt8)
  | .zip entries => entries.filterMap (zipContent target)
  | .tar entries => entries.filterMap (tarContent target)

/-- How many bytes of content there are. -/
def contentLength (content : List (List Text × List UInt8)) : Nat :=
  (content.map (fun file => file.2.length)).sum

theorem contentLength_append (first second : List (List Text × List UInt8)) :
    contentLength (first ++ second) = contentLength first + contentLength second := by
  rw [contentLength, List.map_append, List.sum_append]
  rfl

theorem contentLength_singleton (file : List Text × List UInt8) :
    contentLength [file] = file.2.length := by
  rw [contentLength, List.map_singleton, List.sum_singleton]

theorem filterMap_concat {Item Value : Type} (read : Item -> Option Value) (front : List Item)
    (item : Item) : (front ++ [item]).filterMap read = front.filterMap read ++ (read item).toList := by
  rw [List.filterMap_append, List.filterMap_cons, List.filterMap_nil]
  cases read item <;> rfl

/-! ## Zip -/

section Zip

variable {snapshot : AppConfig} {interrupt : Interruptions} {context : Context} {calls : Calls}
  {target : RelativePath} {index : Nat} {path : List Text} {state after : Extraction}

/-- The running total is what was written, and within the limit. -/
structure Counted (calls : Calls) (state : Extraction) : Prop where
  exact_ : state.totalExtracted = contentLength state.log
  within : contentLength state.log ≤ extractLimit calls.budget

/-- One step of the loop wrote the file of its entry, if it has one. -/
structure Wrote (calls : Calls) (file : Option (List Text × List UInt8))
    (state after : Extraction) : Prop where
  counted : Counted calls after
  log : after.log = state.log ++ file.toList

/-- What the stream of a zip entry is copied through. -/
def zipCopy (interrupt : Interruptions) (calls : Calls) (index : Nat) (entry : ZipEntry)
    (state : Extraction) : List UInt8 × Except IoError Unit :=
  copy (interrupt.write index) (some (extractLimit calls.budget - state.totalExtracted + 1))
    calls.budget entry.broken 0 [] entry.pieces

theorem zipCopy_length (entry : ZipEntry) (state : Extraction) :
    (zipCopy interrupt calls index entry state).1.length ≤
      extractLimit calls.budget - state.totalExtracted + 1 :=
  copy_length_le _ 0 [] entry.pieces (Nat.zero_le _)

theorem contentLength_log (log : List (List Text × List UInt8)) (path : List Text)
    (bytes : List UInt8) : contentLength (log ++ [(path, bytes)]) =
      contentLength log + bytes.length := by
  rw [contentLength_append, contentLength_singleton]

theorem zipFile_ok {entry : ZipEntry} (counted : Counted calls state)
    (done : Context.zipFile interrupt calls index entry path state = (after, .ok ())) :
    Wrote calls (some (path, streamOf entry.pieces)) state after := by
  have exact_ := counted.exact_
  cases result : zipCopy interrupt calls index entry state with
  | mk bytes copied =>
      unfold zipCopy at result
      unfold Context.zipFile at done
      split at done
      · cases done
      · dsimp only at done
        rw [result] at done
        dsimp only at done
        split at done
        · cases done
        · split at done
          · cases done
          · split at done
            · cases done
            · next fits =>
                cases done
                rw [Nat.not_lt] at fits
                have content : bytes = streamOf entry.pieces := by
                  rcases copy_complete 0 [] entry.pieces bytes result with whole | ⟨limit, same, full⟩
                  · exact whole
                  · cases same
                    omega
                subst content
                refine ⟨⟨?_, ?_⟩, rfl⟩
                · rw [contentLength_log, exact_]
                · rw [contentLength_log, ← exact_]
                  exact fits

theorem zipFile_error {entry : ZipEntry} {refusal : Refusal} (counted : Counted calls state)
    (done : Context.zipFile interrupt calls index entry path state = (after, .error refusal)) :
    contentLength after.log ≤ extractLimit calls.budget + 1 := by
  have within := counted.within
  have exact_ := counted.exact_
  have bounded := @zipCopy_length interrupt calls index entry state
  cases result : zipCopy interrupt calls index entry state with
  | mk bytes copied =>
      rw [result] at bounded
      dsimp only at bounded
      have grown : contentLength (state.log ++ [(path, bytes)]) ≤
          extractLimit calls.budget + 1 := by
        rw [contentLength_log]
        omega
      unfold zipCopy at result
      unfold Context.zipFile at done
      split at done
      · cases done
        exact Nat.le_succ_of_le within
      · dsimp only at done
        rw [result] at done
        dsimp only at done
        split at done
        · cases done
          exact Nat.le_succ_of_le within
        · split at done
          · cases done
            exact grown
          · split at done
            · cases done
              exact grown
            · cases done

/-- Directories have no content. -/
theorem zipDirectory_log (calls : Calls) (path : List Text) (state : Extraction) :
    (Context.zipDirectory calls path state).1.log = state.log ∧
      (Context.zipDirectory calls path state).1.totalExtracted = state.totalExtracted := by
  unfold Context.zipDirectory
  split <;> exact ⟨rfl, rfl⟩

theorem Counted.congr {other : Extraction} (counted : Counted calls state)
    (log : other.log = state.log) (total : other.totalExtracted = state.totalExtracted) :
    Counted calls other := by
  refine ⟨?_, ?_⟩
  · rw [log, total]
    exact counted.exact_
  · rw [log]
    exact counted.within

theorem zipEntry_ok {entry : Option ZipEntry} (counted : Counted calls state)
    (done : Context.zipEntry snapshot interrupt context calls target index entry state =
      (after, .ok ())) :
    Wrote calls (zipContent target entry) state after := by
  unfold Context.zipEntry at done
  cases entry with
  | none => cases done
  | some entry =>
      dsimp only at done
      split at done
      · next link =>
          cases done
          refine ⟨counted, ?_⟩
          simp [zipContent, link]
      · next plain =>
          split at done
          · cases done
          · next path checked =>
              rcases zipChecked_ok checked with ⟨name, enclosed, _, rfl⟩
              split at done
              · cases done
              · next made extracted =>
                  have wrote : Wrote calls (zipContent target (some entry)) state made := by
                    split at extracted
                    · next directory =>
                        have same := zipDirectory_log calls
                          (segmentNames target.value ++ segmentNames name) state
                        rw [extracted] at same
                        refine ⟨counted.congr same.1 same.2, ?_⟩
                        have none_ : zipContent target (some entry) = none := by
                          simp [zipContent, directory]
                        rw [none_, Option.toList_none, List.append_nil]
                        exact same.1
                    · next file =>
                        have content : zipContent target (some entry) = some
                            (segmentNames target.value ++ segmentNames name,
                              streamOf entry.pieces) := by
                          simp [zipContent, plain, file, enclosed]
                        rw [content]
                        exact zipFile_ok counted extracted
                  split at done
                  · cases done
                    exact ⟨wrote.counted.congr rfl rfl, wrote.log⟩
                  · cases done
                    exact wrote

theorem zipEntry_error {entry : Option ZipEntry} {refusal : Refusal} (counted : Counted calls state)
    (done : Context.zipEntry snapshot interrupt context calls target index entry state =
      (after, .error refusal)) :
    contentLength after.log ≤ extractLimit calls.budget + 1 := by
  have within := Nat.le_succ_of_le counted.within
  unfold Context.zipEntry at done
  cases entry with
  | none =>
      cases done
      exact within
  | some entry =>
      dsimp only at done
      split at done
      · cases done
      · split at done
        · cases done
          exact within
        · next path checked =>
            split at done
            · next made refusal extracted =>
                cases done
                split at extracted
                · have same := zipDirectory_log calls path state
                  rw [extracted] at same
                  rw [same.1]
                  exact within
                · exact zipFile_error counted extracted
            · split at done <;> cases done

/-- A zip archive is written within its limit, and completely when the run
succeeds. -/
theorem zip_limit (entries : List (Option ZipEntry)) (counted : Counted calls state) :
    contentLength (Context.extractEntries snapshot interrupt context calls target (.zip entries)
        state).1.log ≤ extractLimit calls.budget + 1 ∧
      forall after, Context.extractEntries snapshot interrupt context calls target (.zip entries)
          state = (after, .ok ()) ->
        contentLength after.log ≤ extractLimit calls.budget ∧
        after.log = state.log ++ Archive.content target (.zip entries) := by
  constructor
  · exact Passes.pass_ends (fun _ => Counted calls)
      (fun state => contentLength state.log ≤ extractLimit calls.budget + 1)
      (fun _ _ _ _ _ counted done => (zipEntry_ok counted done).counted) (List.nil_append entries)
      (fun _ counted => Nat.le_succ_of_le counted.within)
      (fun _ _ _ _ _ _ _ counted done => zipEntry_error counted done) counted
  · intro after done
    have start : Counted calls state ∧
        state.log = state.log ++ ([] : List (Option ZipEntry)).filterMap (zipContent target) :=
      ⟨counted, (List.append_nil _).symm⟩
    have final := Passes.pass_ok
      (fun front now => Counted calls now ∧
        now.log = state.log ++ front.filterMap (zipContent target))
      (by
        rintro index front entry now next ⟨counted, log⟩ stepped
        have wrote := zipEntry_ok counted stepped
        refine ⟨wrote.counted, ?_⟩
        rw [wrote.log, log, filterMap_concat, List.append_assoc])
      start done
    exact ⟨final.1.within, final.2⟩

end Zip

/-! ## Tar -/

/-- The declared size of an entry is added. -/
def tarChargeOf (total : Nat) : Option TarEntry -> Nat
  | some entry =>
      if entry.kind.isLink then total else Context.wrappingAdd total (entry.size.getD 0)
  | none => total

/-- The running total of the declared sizes. -/
def tarCharge (entries : List (Option TarEntry)) : Nat := entries.foldl tarChargeOf 0

theorem tarCharge_concat (front : List (Option TarEntry)) (entry : Option TarEntry) :
    tarCharge (front ++ [entry]) = tarChargeOf (tarCharge front) entry :=
  List.foldl_concat tarChargeOf 0 entry front

/-- The declared sizes cover the content: as long as their running total stays
within the limit, so does the content. -/
def SizesCover (limit : Nat) (target : RelativePath) (entries : List (Option TarEntry)) : Prop :=
  forall front, front <+: entries -> (forall first, first <+: front -> tarCharge first ≤ limit) ->
    contentLength (Archive.content target (.tar front)) ≤ limit

theorem copy_length_stream {stop : Nat -> Option (Nat × IoError)} {budget : Option Nat}
    {broken : Bool} (index : Nat) (written : List UInt8) (pieces : List (List UInt8)) :
    (copy stop none budget broken index written pieces).1.length ≤
      written.length + (streamOf pieces).length := by
  induction pieces generalizing index written with
  | nil =>
      unfold copy
      split <;> exact Nat.le_add_right _ _
  | cons piece rest ih =>
      unfold copy
      dsimp only
      split
      · exact Nat.le_add_right _ _
      · next filled =>
          rw [streamOf_cons filled, List.length_append]
          split
          · dsimp only
            omega
          · split
            · rw [List.length_append, List.length_take]
              omega
            · have later := ih (index + 1) (written ++ piece)
              rw [List.length_append] at later
              omega

section Tar

variable {snapshot : AppConfig} {interrupt : Interruptions} {context : Context} {calls : Calls}
  {target : RelativePath} {index : Nat} {path : List Text} {state after : Extraction}

theorem unpackFile_ok {entry : TarEntry}
    (done : Context.unpackFile interrupt calls index entry path state = (after, .ok ())) :
    after.log = state.log ++ [(path, streamOf entry.pieces)] ∧
      after.totalExtracted = state.totalExtracted := by
  cases result : copy (interrupt.write index) none none entry.broken 0 [] entry.pieces with
  | mk bytes copied =>
      unfold Context.unpackFile at done
      rw [result] at done
      split at done
      · dsimp only at done
        split at done
        · cases done
        · cases done
          rcases copy_complete 0 [] entry.pieces bytes result with whole | ⟨_, same, _⟩
          · rw [whole]
            exact ⟨rfl, rfl⟩
          · cases same
      · cases done

theorem unpackFile_error {entry : TarEntry} {refusal : Refusal}
    (done : Context.unpackFile interrupt calls index entry path state = (after, .error refusal)) :
    contentLength after.log ≤ contentLength (state.log ++ [(path, streamOf entry.pieces)]) := by
  have bounded := @copy_length_stream (interrupt.write index) none entry.broken 0 [] entry.pieces
  cases result : copy (interrupt.write index) none none entry.broken 0 [] entry.pieces with
  | mk bytes copied =>
      rw [result] at bounded
      dsimp only [List.length_nil] at bounded
      unfold Context.unpackFile at done
      rw [result] at done
      split at done
      · dsimp only at done
        split at done
        · cases done
          rw [contentLength_log, contentLength_log]
          omega
        · cases done
      · cases done
        rw [contentLength_log]
        omega

theorem unpackDirectory_log (calls : Calls) (entry : TarEntry) (path : List Text)
    (state : Extraction) : (Context.unpackDirectory calls entry path state).1.log = state.log ∧
      (Context.unpackDirectory calls entry path state).1.totalExtracted =
        state.totalExtracted := by
  unfold Context.unpackDirectory
  split
  · split <;> exact ⟨rfl, rfl⟩
  · exact ⟨rfl, rfl⟩

/-- What unpacking one entry adds to the content. -/
theorem unpack_ok {entry : TarEntry} {name : Text} (named : entry.path = .ok name)
    (plain : entry.kind.isLink = false)
    (done : Context.unpack interrupt calls index entry
      (segmentNames target.value ++ segmentNames name) state = (after, .ok ())) :
    after.log = state.log ++ (tarContent target (some entry)).toList ∧
      after.totalExtracted = state.totalExtracted := by
  unfold Context.unpack at done
  cases kind : entry.kind with
  | directory =>
      rw [kind] at done
      dsimp only at done
      have same := unpackDirectory_log calls entry (segmentNames target.value ++ segmentNames name)
        state
      rw [done] at same
      have nothing : tarContent target (some entry) = none := by simp [tarContent, kind]
      rw [nothing, Option.toList_none, List.append_nil]
      exact same
  | globalHeader =>
      rw [kind] at done
      cases done
      have nothing : tarContent target (some entry) = none := by simp [tarContent, kind]
      rw [nothing, Option.toList_none, List.append_nil]
      exact ⟨rfl, rfl⟩
  | file =>
      rw [kind] at done
      have content : tarContent target (some entry) =
          some (segmentNames target.value ++ segmentNames name, streamOf entry.pieces) := by
        simp [tarContent, kind, named]
      rw [content]
      exact unpackFile_ok done
  | symlink | hardLink =>
      rw [kind] at plain
      cases plain

theorem unpack_error {entry : TarEntry} {name : Text} {refusal : Refusal}
    (named : entry.path = .ok name) (plain : entry.kind.isLink = false)
    (done : Context.unpack interrupt calls index entry
      (segmentNames target.value ++ segmentNames name) state = (after, .error refusal)) :
    contentLength after.log ≤
      contentLength (state.log ++ (tarContent target (some entry)).toList) := by
  unfold Context.unpack at done
  cases kind : entry.kind with
  | directory =>
      rw [kind] at done
      dsimp only at done
      have same := unpackDirectory_log calls entry (segmentNames target.value ++ segmentNames name)
        state
      rw [done] at same
      rw [same.1, contentLength_append]
      exact Nat.le_add_right _ _
  | globalHeader =>
      rw [kind] at done
      cases done
  | file =>
      rw [kind] at done
      have content : tarContent target (some entry) =
          some (segmentNames target.value ++ segmentNames name, streamOf entry.pieces) := by
        simp [tarContent, kind, named]
      rw [content]
      exact unpackFile_error done
  | symlink | hardLink =>
      rw [kind] at plain
      cases plain

theorem tarEntry_ok {entry : Option TarEntry}
    (done : Context.tarEntry snapshot interrupt context calls target index entry state =
      (after, .ok ())) :
    after.log = state.log ++ (tarContent target entry).toList ∧
      after.totalExtracted = tarChargeOf state.totalExtracted entry ∧
      (after.totalExtracted = state.totalExtracted ∨
        after.totalExtracted ≤ extractLimit calls.budget) := by
  unfold Context.tarEntry at done
  split at done
  · cases done
  · cases entry with
    | none => cases done
    | some entry =>
        dsimp only at done
        split at done
        · cases done
        · next names checked =>
            rcases tarChecked_ok checked with ⟨name, named, _, rfl⟩
            split at done
            · next link =>
                cases done
                have nothing : tarContent target (some entry) = none := by
                  cases kind : entry.kind <;> rw [kind] at link <;>
                    first | (cases link; done) | simp [tarContent, kind]
                rw [nothing, Option.toList_none, List.append_nil, tarChargeOf, if_pos link]
                exact ⟨rfl, rfl, .inl rfl⟩
            · next plain =>
                split at done
                · cases done
                · split at done
                  · cases done
                  · next fits =>
                      rw [Bool.not_eq_true] at plain
                      rcases unpack_ok named plain done with ⟨log, total⟩
                      refine ⟨log, ?_, .inr ?_⟩
                      · rw [total, tarChargeOf, plain]
                        rfl
                      · rw [total]
                        exact Nat.le_of_not_lt fits

theorem tarEntry_error {entry : Option TarEntry} {refusal : Refusal}
    (done : Context.tarEntry snapshot interrupt context calls target index entry state =
      (after, .error refusal)) :
    after.log = state.log ∨
      contentLength after.log ≤ contentLength (state.log ++ (tarContent target entry).toList) ∧
        tarChargeOf state.totalExtracted entry ≤ extractLimit calls.budget := by
  unfold Context.tarEntry at done
  split at done
  · cases done
    exact .inl rfl
  · cases entry with
    | none =>
        cases done
        exact .inl rfl
    | some entry =>
        dsimp only at done
        split at done
        · cases done
          exact .inl rfl
        · next names checked =>
            rcases tarChecked_ok checked with ⟨name, named, _, rfl⟩
            split at done
            · cases done
            · next plain =>
                split at done
                · cases done
                  exact .inl rfl
                · split at done
                  · cases done
                    exact .inl rfl
                  · next fits =>
                      rw [Bool.not_eq_true] at plain
                      have bounded := unpack_error named plain done
                      refine .inr ⟨bounded, ?_⟩
                      rw [tarChargeOf, plain]
                      exact Nat.le_of_not_lt fits

/-- The loop over a tar archive up to some entry. -/
structure Charged (calls : Calls) (target : RelativePath) (start : Extraction)
    (front : List (Option TarEntry)) (state : Extraction) : Prop where
  log : state.log = start.log ++ Archive.content target (.tar front)
  total : state.totalExtracted = tarCharge front
  within : forall first, first <+: front -> tarCharge first ≤ extractLimit calls.budget

theorem Charged.concat {start : Extraction} {front : List (Option TarEntry)}
    {entry : Option TarEntry} (charged : Charged calls target start front state)
    (done : Context.tarEntry snapshot interrupt context calls target index entry state =
      (after, .ok ())) : Charged calls target start (front ++ [entry]) after := by
  rcases tarEntry_ok done with ⟨log, total, fits⟩
  refine ⟨?_, ?_, ?_⟩
  · rw [log, charged.log, List.append_assoc, Archive.content, Archive.content, filterMap_concat]
  · rw [total, charged.total, tarCharge_concat]
  · intro first inside
    rcases List.prefix_concat_iff.mp inside with whole | shorter
    · rw [whole, tarCharge_concat, ← charged.total, ← total]
      rcases fits with same | within
      · rw [same, charged.total]
        exact charged.within front (List.prefix_refl _)
      · exact within
    · exact charged.within first shorter

/-- A tar archive whose declared sizes cover its content is written within its
limit; one that is extracted to the end is written completely, and its content
is within the limit exactly when the declared sizes cover it. -/
theorem tar_limit (entries : List (Option TarEntry)) (empty : state.log = [])
    (fresh : state.totalExtracted = 0) :
    (SizesCover (extractLimit calls.budget) target entries ->
      contentLength (Context.extractEntries snapshot interrupt context calls target (.tar entries)
        state).1.log ≤ extractLimit calls.budget) ∧
      forall after, Context.extractEntries snapshot interrupt context calls target (.tar entries)
          state = (after, .ok ()) ->
        after.log = Archive.content target (.tar entries) ∧
        (contentLength after.log ≤ extractLimit calls.budget ↔
          SizesCover (extractLimit calls.budget) target entries) := by
  have start : Charged calls target state [] state := by
    refine ⟨(List.append_nil _).symm, fresh, ?_⟩
    intro first inside
    rw [List.prefix_nil.mp inside]
    exact Nat.zero_le _
  have content : forall front now, Charged calls target state front now ->
      now.log = Archive.content target (.tar front) := by
    intro front now charged
    rw [charged.log, empty, List.nil_append]
  constructor
  · intro cover
    apply Passes.pass_ends (Charged calls target state)
      (fun now => contentLength now.log ≤ extractLimit calls.budget)
      (fun _ _ _ _ _ charged done => charged.concat done) (List.nil_append entries) _ _ start
    · intro now charged
      rw [content entries now charged]
      exact cover entries (List.prefix_refl _) charged.within
    · intro index front entry now next error inside charged done
      have earlier := cover front ((List.prefix_append front [entry]).trans inside) charged.within
      rcases tarEntry_error done with same | ⟨bounded, fits⟩
      · rw [same, content front now charged]
        exact earlier
      · refine Nat.le_trans bounded ?_
        rw [content front now charged, Archive.content, ← filterMap_concat]
        apply cover (front ++ [entry]) inside
        intro first inside
        rcases List.prefix_concat_iff.mp inside with whole | shorter
        · rw [whole, tarCharge_concat, ← charged.total]
          exact fits
        · exact charged.within first shorter
  · intro after done
    have charged : Charged calls target state ([] ++ entries) after :=
      Passes.pass_ok (Charged calls target state)
        (fun _ _ _ _ _ charged done => charged.concat done) start done
    rw [List.nil_append] at charged
    have whole := content entries after charged
    refine ⟨whole, ?_⟩
    rw [whole]
    constructor
    · intro within front inside _
      rcases inside with ⟨rest, rfl⟩
      rw [Archive.content, List.filterMap_append, contentLength_append] at within
      exact Nat.le_trans (Nat.le_add_right _ _) within
    · intro cover
      exact cover entries (List.prefix_refl _) charged.within

end Tar

/-- Sizes that are no smaller than the streams, and too small to wrap around,
cover the content. -/
theorem sizesCover_of_honest {limit : Nat} {target : RelativePath}
    {entries : List (Option TarEntry)}
    (honest : forall entry, some entry ∈ entries -> entry.kind.isLink = false ->
      (streamOf entry.pieces).length ≤ entry.size.getD 0 ∧ limit + entry.size.getD 0 < 2 ^ 64) :
    SizesCover limit target entries := by
  intro front inside within
  suffices covered : contentLength (Archive.content target (.tar front)) ≤ tarCharge front from
    Nat.le_trans covered (within front (List.prefix_refl _))
  induction front using List.reverseRecOn with
  | nil => exact Nat.zero_le _
  | append_singleton front entry ih =>
      have shorter : front <+: front ++ [entry] := List.prefix_append _ _
      have earlier := ih (shorter.trans inside)
        (fun first here => within first (here.trans shorter))
      have charged := within front shorter
      rw [Archive.content] at earlier ⊢
      rw [filterMap_concat, contentLength_append, tarCharge_concat]
      cases entry with
      | none => exact earlier
      | some entry =>
          have member : some entry ∈ entries :=
            inside.subset (List.mem_append_right _ List.mem_cons_self)
          cases plain : entry.kind.isLink with
          | true =>
              have nothing : tarContent target (some entry) = none := by
                cases kind : entry.kind <;> rw [kind] at plain <;>
                  first | (cases plain; done) | simp [tarContent, kind]
              rw [nothing, tarChargeOf, plain]
              exact earlier
          | false =>
              rcases honest entry member plain with ⟨long, small⟩
              have added : Context.wrappingAdd (tarCharge front) (entry.size.getD 0) =
                  tarCharge front + entry.size.getD 0 := by
                apply Nat.mod_eq_of_lt
                omega
              have content : contentLength (tarContent target (some entry)).toList ≤
                  (streamOf entry.pieces).length := by
                unfold tarContent
                rw [Option.bind_some]
                split
                · exact Nat.le_of_eq (contentLength_singleton _)
                · exact Nat.zero_le _
              rw [tarChargeOf, plain, if_neg (by decide), added]
              omega

/-! ## The whole extraction -/

/-- An extraction writes at most one byte over the limit before it stops; one
that succeeds writes the whole content, and stays within the limit. -/
structure WrittenWithin (limit : Nat) (target : RelativePath) (opened : Archive)
    (run : Extraction × Except Refusal Unit) : Prop where
  stops : contentLength run.1.log ≤ limit + 1
  within : run.2 = .ok () -> contentLength run.1.log ≤ limit
  complete : run.2 = .ok () -> run.1.log = opened.content target

/-- What a zip archive declares is not used. -/
def Archive.Covered (limit : Nat) (target : RelativePath) : Archive -> Prop
  | .zip _ => True
  | .tar entries => SizesCover limit target entries

/-- Nothing is written before the archive is opened.  What is extracted from an
archive stays within the limit when its declared sizes cover its content, which
they do in every zip archive; an extraction that succeeds stays within the
limit exactly then. -/
theorem extract_limit (snapshot : AppConfig) (interrupt : Interruptions) (context : Context)
    (calls : Calls) (readers : ArchiveReaders)
    (canonicalize : Node -> List Text -> Except IoError (List Text)) (disk made : Node)
    (begun : Except Refusal (RelativePath × Archive))
    (start : context.beginExtract calls readers canonicalize disk = (made, begun)) :
    let run := Context.extractArchiveWithRoots snapshot interrupt context calls readers
      canonicalize disk
    let limit := extractLimit calls.budget
    (forall refusal, begun = .error refusal -> contentLength run.1.log = 0) ∧
    forall target opened, begun = .ok (target, opened) ->
      (opened.Covered limit target -> WrittenWithin limit target opened run) ∧
      (run.2 = .ok () -> (WrittenWithin limit target opened run ↔ opened.Covered limit target)) := by
  dsimp only
  unfold Context.extractArchiveWithRoots
  rw [start]
  constructor
  · rintro refusal rfl
    rfl
  · rintro target opened rfl
    dsimp only
    cases opened with
    | zip entries =>
        have counted : Counted calls ⟨made, 0, []⟩ := ⟨rfl, Nat.zero_le _⟩
        rcases @zip_limit snapshot interrupt context calls target _ entries counted with
          ⟨stops, finished⟩
        have bounded : WrittenWithin (extractLimit calls.budget) target (.zip entries)
            (Context.extractEntries snapshot interrupt context calls target (.zip entries)
              ⟨made, 0, []⟩) := by
          refine ⟨stops, ?_, ?_⟩
          · intro success
            exact (finished _ (Prod.ext rfl success)).1
          · intro success
            exact (finished _ (Prod.ext rfl success)).2
        exact ⟨fun _ => bounded, fun _ => ⟨fun _ => trivial, fun _ => bounded⟩⟩
    | tar entries =>
        rcases @tar_limit snapshot interrupt context calls target ⟨made, 0, []⟩ entries rfl rfl with
          ⟨covered, finished⟩
        have bounded : SizesCover (extractLimit calls.budget) target entries ->
            WrittenWithin (extractLimit calls.budget) target (.tar entries)
              (Context.extractEntries snapshot interrupt context calls target (.tar entries)
                ⟨made, 0, []⟩) := by
          intro cover
          refine ⟨Nat.le_succ_of_le (covered cover), fun _ => covered cover, ?_⟩
          intro success
          exact (finished _ (Prod.ext rfl success)).1
        refine ⟨bounded, fun success => ⟨?_, bounded⟩⟩
        intro written
        exact (finished _ (Prod.ext rfl success)).2.mp (written.within success)

namespace OneExtract

/-- An archive `a.zip` or `a.tar`, whose bytes do not matter here. -/
def disk : Node :=
  .branch 0o755 [("a.zip".toList, .leaf (.file OneRename.stat [0])),
    ("a.tar".toList, .leaf (.file OneRename.stat [0]))]

def request (archive : Text) : HelperRequest :=
  { uploadOf archive with
    command := .extractArchive
    targetRelativePath := some ⟨"out".toList⟩
    writeOptions := none }

def context (archive : Text) : Context := ⟨.standard, request archive, []⟩

/-- Two bytes are left. -/
def calls : Calls := { OneRename.calls with budget := some 2 }

def readers (zip : List ZipEntry) (tar : List TarEntry) : ArchiveReaders :=
  ⟨fun _ => some (zip.map some), fun _ _ => .ok (tar.map some)⟩

def canonicalize (_ : Node) (path : List Text) : Except IoError (List Text) := .ok path

def interrupt : Interruptions := ⟨fun _ => false, fun _ _ => none⟩

def zipped (name : Text) (bytes : List UInt8) : ZipEntry :=
  ⟨some 0o100644, some name, false, [bytes], false⟩

/-- The header declares no bytes, a record beside it the real length. -/
def lying (name : Text) (bytes : List UInt8) : TarEntry :=
  ⟨.ok name, .file, some 0, 0o644, [bytes], false⟩

def run (archive : Text) (readers : ArchiveReaders) : Extraction × Except Refusal Unit :=
  Context.extractArchiveWithRoots .standard interrupt (context archive) calls readers canonicalize
    disk

def begun (archive : Text) (readers : ArchiveReaders) :
    Node × Except Refusal (RelativePath × Archive) :=
  (context archive).beginExtract calls readers canonicalize disk

end OneExtract

open OneExtract in
theorem extract_limit_zip :
    WrittenWithin 2 ⟨"out".toList⟩ (.zip [some (zipped "b".toList [1, 2])])
      (run "a.zip".toList (readers [zipped "b".toList [1, 2]] [])) ∧
      (run "a.zip".toList (readers [zipped "b".toList [1, 2]] [])).2.isOk = true := by
  have started : begun "a.zip".toList (readers [zipped "b".toList [1, 2]] []) =
      ((begun "a.zip".toList (readers [zipped "b".toList [1, 2]] [])).1,
        .ok (⟨"out".toList⟩, .zip [some (zipped "b".toList [1, 2])])) := by
    rfl
  refine ⟨?_, by decide⟩
  exact ((extract_limit .standard interrupt (context "a.zip".toList) calls
    (readers [zipped "b".toList [1, 2]] []) canonicalize disk _ _ started).2 _ _ rfl).1 trivial

open OneExtract in
/-- Two bytes may be written, the extraction succeeds and writes five. -/
theorem extract_lying_header :
    (run "a.tar".toList (readers [] [lying "b".toList [1, 2, 3, 4, 5]])).2.isOk = true ∧
      contentLength (run "a.tar".toList (readers [] [lying "b".toList [1, 2, 3, 4, 5]])).1.log = 5 ∧
      extractLimit calls.budget = 2 ∧
      ¬ WrittenWithin (extractLimit calls.budget) ⟨"out".toList⟩
        (.tar [some (lying "b".toList [1, 2, 3, 4, 5])])
        (run "a.tar".toList (readers [] [lying "b".toList [1, 2, 3, 4, 5]])) := by
  refine ⟨by decide, by decide, by decide, ?_⟩
  intro written
  have stops := written.stops
  revert stops
  decide

end TealDrive
