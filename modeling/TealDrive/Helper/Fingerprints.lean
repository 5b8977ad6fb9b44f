import Mathlib.Data.List.Dedup
import TealDrive.Helper.Observation

namespace TealDrive

open Outcome

/-!
# What a fingerprint says

`Fingerprinted` says which state belongs to a tree, without limits, failures or
an order of calls.  A state that is fully observed is the fingerprint of the
tree it was taken of, and nothing below was left out.  When no two texts have
the same digest, two trees with one fingerprint look the same at every path.
-/

/-! ## The text of a state -/

section Texts

open JsonText

/-- A text that is written as it is and separates nothing. -/
def Quiet (text : Text) : Prop := forall symbol, symbol ∈ text -> Plain symbol ∧ symbol ≠ ','

/-- Digits in base sixteen. -/
def HexText (text : Text) : Prop :=
  forall symbol, symbol ∈ text -> symbol.isDigit = true ∨ symbol ∈ "abcdef".toList

theorem Quiet.plain {text : Text} (quiet : Quiet text) : forall symbol, symbol ∈ text -> Plain symbol :=
  fun symbol member => (quiet symbol member).1

theorem Quiet.comma {text : Text} (quiet : Quiet text) : ',' ∉ text :=
  fun member => (quiet ',' member).2 rfl

theorem not_digit_comma : Char.isDigit ',' ≠ true := by decide

theorem quiet_natural (value : Nat) : Quiet (natural value) := by
  intro symbol member
  refine ⟨plain_natural value symbol member, ?_⟩
  rintro rfl
  exact not_digit_comma (Nat.isDigit_of_mem_toDigits (by decide) (by decide) member)

theorem HexText.quiet {text : Text} (hex : HexText text) : Quiet text := by
  intro symbol member
  rcases hex symbol member with digit | letter
  · refine ⟨plain_of_isDigit digit, ?_⟩
    rintro rfl
    exact not_digit_comma digit
  · have each : forall other, other ∈ "abcdef".toList ->
        (other ≠ '"' ∧ other ≠ '\\' ∧ 32 ≤ other.toNat ∧ other.toNat < 128) ∧ other ≠ ',' :=
      Text.forall_mem (by decide)
    exact each symbol letter

theorem HexText.noNull {text : Text} (hex : HexText text) : '\x00' ∉ text := by
  intro member
  rcases hex '\x00' member with digit | letter
  · exact absurd digit (by decide)
  · exact absurd letter (by decide)

theorem comma_quoted {text : Text} (quiet : Quiet text) : ',' ∉ quoted text := by
  unfold quoted
  rw [flatMap_escape_plain quiet.plain]
  intro member
  rcases List.mem_cons.mp member with quote | inner
  · exact absurd quote (by decide)
  · rcases List.mem_append.mp inner with within | quote
    · exact quiet.comma within
    · exact absurd (List.mem_singleton.mp quote) (by decide)

theorem comma_natural (value : Nat) : ',' ∉ natural value := (quiet_natural value).comma

theorem comma_integer (value : Int) : ',' ∉ integer value := by
  cases value with
  | ofNat value => exact comma_natural value
  | negSucc value =>
      intro member
      rcases List.mem_cons.mp member with sign | digits
      · exact absurd sign (by decide)
      · exact comma_natural (value + 1) digits

theorem comma_optional {text : Option Text} (quiet : forall given, text = some given -> Quiet given) :
    ',' ∉ optional quoted text := by
  cases text with
  | none => decide
  | some given => exact comma_quoted (quiet given rfl)

theorem comma_member {name value : Text} (first : ',' ∉ quoted name) (second : ',' ∉ value) :
    ',' ∉ member name value := by
  intro inside
  rcases List.mem_append.mp inside with inside | inside
  · exact first inside
  · rcases List.mem_cons.mp inside with colon | inside
    · exact absurd colon (by decide)
    · exact second inside

attribute [ext] FileState

namespace FileState

/-- A state whose texts are numbers and digests. -/
structure Readable (state : FileState) : Prop where
  device : Quiet state.device
  inode : Quiet state.inode
  contentDigest : forall digest, state.contentDigest = some digest -> Quiet digest
  treeDigest : forall digest, state.treeDigest = some digest -> Quiet digest

theorem comma_kind (kind : FileKind) : ',' ∉ quoted kind.text := by
  cases kind with
  | file => decide
  | directory => decide
  | other => decide

theorem kind_injective {first second : FileKind} (same : quoted first.text = quoted second.text) :
    first = second := by
  cases first with
  | file =>
      cases second with
      | file => rfl
      | directory => exact absurd same (by decide)
      | other => exact absurd same (by decide)
  | directory =>
      cases second with
      | file => exact absurd same (by decide)
      | directory => rfl
      | other => exact absurd same (by decide)
  | other =>
      cases second with
      | file => exact absurd same (by decide)
      | directory => exact absurd same (by decide)
      | other => rfl

theorem comma_values {state : FileState} (readable : state.Readable) (unsigned : state.digest = []) :
    forall entry, entry ∈ state.members -> ',' ∉ entry.2 := by
  unfold members
  rw [unsigned]
  simp only [List.forall_mem_cons]
  refine ⟨comma_quoted (fun _ none => absurd none List.not_mem_nil), comma_quoted readable.device,
    comma_quoted readable.inode, comma_kind state.kind, comma_natural _, comma_natural _,
    comma_natural _, comma_natural _, comma_natural _, comma_integer _, comma_integer _,
    comma_integer _, comma_integer _, comma_optional readable.contentDigest,
    comma_optional readable.treeDigest, fun _ none => absurd none List.not_mem_nil⟩

theorem comma_members {state : FileState} (readable : state.Readable) (unsigned : state.digest = []) :
    forall entry, entry ∈ state.members -> ',' ∉ member entry.1 entry.2 := by
  intro entry listed
  have names : forall name, name ∈ memberNames -> ',' ∉ quoted name := by decide
  apply comma_member _ (comma_values readable unsigned entry listed)
  apply names
  rw [← members_names state]
  exact List.mem_map_of_mem listed

/-- States with one text are equal. -/
theorem json_injective {first second : FileState} (one : first.Readable) (two : second.Readable)
    (firstUnsigned : first.digest = []) (secondUnsigned : second.digest = [])
    (same : first.json = second.json) : first = second := by
  have rows : first.members = second.members := by
    apply object_injective _ (comma_members one firstUnsigned) (comma_members two secondUnsigned) same
    rw [members_names, members_names]
  simp only [members, List.cons.injEq, Prod.mk.injEq, true_and, and_true] at rows
  rcases rows with ⟨_, device, inode, kind, mode, uid, gid, size, links, mtimeSeconds, mtimeNanos,
    ctimeSeconds, ctimeNanos, contentDigest, treeDigest⟩
  exact FileState.ext (firstUnsigned.trans secondUnsigned.symm)
    (quoted_injective one.device.plain two.device.plain device)
    (quoted_injective one.inode.plain two.inode.plain inode) (kind_injective kind)
    (natural_injective mode) (natural_injective uid) (natural_injective gid)
    (natural_injective size) (natural_injective links) (integer_injective mtimeSeconds)
    (integer_injective mtimeNanos) (integer_injective ctimeSeconds) (integer_injective ctimeNanos)
    (optional_quoted_injective (fun text given => (one.contentDigest text given).plain)
      (fun text given => (two.contentDigest text given).plain) contentDigest)
    (optional_quoted_injective (fun text given => (one.treeDigest text given).plain)
      (fun text given => (two.treeDigest text given).plain) treeDigest)

end FileState

end Texts

/-! ## Bytes -/

theorem Utf8.encode_injective {first second : Text} (same : Utf8.encode first = Utf8.encode second) :
    first = second := by
  have one := Utf8.decodeScalars_text first []
  have two := Utf8.decodeScalars_text second []
  rw [List.append_nil, Utf8.decodeScalars_nil, List.append_nil] at one two
  rw [← one, ← two, same]

theorem FileState.signed_injective {first second : FileState} (one : first.Readable)
    (two : second.Readable) (same : first.signed = second.signed) :
    { first with digest := [] } = { second with digest := [] } := by
  exact json_injective ⟨one.device, one.inode, one.contentDigest, one.treeDigest⟩
    ⟨two.device, two.inode, two.contentDigest, two.treeDigest⟩ rfl rfl (Utf8.encode_injective same)

namespace Observer

def entryText (name digest : Text) : Text := name ++ '\x00' :: (digest ++ ['\x00'])

theorem encode_entryText (name digest : Text) :
    Utf8.encode (entryText name digest) = entryBytes name digest := by
  have null : Utf8.encode ['\x00'] = [0] := by decide
  unfold entryText entryBytes
  rw [Utf8.encode_append, ← List.singleton_append, Utf8.encode_append, Utf8.encode_append, null]
  simp only [List.append_assoc]

/-- No name and no digest contains the null that ends it. -/
theorem entries_injective {first second : List (Text × Text)}
    (one : forall entry, entry ∈ first -> '\x00' ∉ entry.1 ∧ '\x00' ∉ entry.2)
    (two : forall entry, entry ∈ second -> '\x00' ∉ entry.1 ∧ '\x00' ∉ entry.2)
    (same : first.flatMap (fun entry => entryBytes entry.1 entry.2) =
      second.flatMap (fun entry => entryBytes entry.1 entry.2)) : first = second := by
  have encoded : forall rows : List (Text × Text),
      rows.flatMap (fun entry => entryBytes entry.1 entry.2) =
        Utf8.encode (rows.flatMap (fun entry => entryText entry.1 entry.2)) := by
    intro rows
    induction rows with
    | nil => rfl
    | cons entry rest ih =>
        rw [List.flatMap_cons, List.flatMap_cons, Utf8.encode_append, encode_entryText, ih]
  rw [encoded, encoded] at same
  have texts := Utf8.encode_injective same
  clear same encoded
  induction first generalizing second with
  | nil =>
      cases second with
      | nil => rfl
      | cons entry rest =>
          rw [List.flatMap_cons] at texts
          unfold entryText at texts
          simp at texts
  | cons entry rest ih =>
      cases second with
      | nil =>
          rw [List.flatMap_cons] at texts
          unfold entryText at texts
          simp at texts
      | cons other others =>
          rw [List.flatMap_cons, List.flatMap_cons] at texts
          unfold entryText at texts
          simp only [List.append_assoc, List.cons_append, List.nil_append] at texts
          rcases List.forall_mem_cons.mp one with ⟨here, further⟩
          rcases List.forall_mem_cons.mp two with ⟨otherHere, otherFurther⟩
          rcases Segments.append_separator_injective here.1 otherHere.1 texts with ⟨name, behind⟩
          rcases Segments.append_separator_injective here.2 otherHere.2 behind with
            ⟨digest, remaining⟩
          rw [ih further otherFurther remaining, Prod.ext name digest]

end Observer

/-! ## The fingerprint of a tree -/

section Trees

variable (sha256 : List UInt8 -> Text)

/-- The digest of a tree is taken of everything below it, in the order of the
names. -/
inductive Fingerprinted : Folder -> FileState -> Prop where
  | file {inode : Inode} {bytes : List UInt8} :
      Fingerprinted (.leaf (.file inode bytes))
        (FileState.finish sha256 { FileState.metadata (.leaf (.file inode bytes)) with
          contentDigest := some (sha256 bytes) })
  | directory {inode : Inode} {entries : List (EntryName × Folder)}
      (rows : List (FileName × FileState)) (children : FileName -> Folder)
      (names : (rows.map (fun row => EntryName.text row.1)).Perm
        (Folder.entryNames (.branch inode entries)))
      (sorted : (rows.map (fun row => row.1.1)).Pairwise (· ≤ ·))
      (present : forall row, row ∈ rows -> Rows.find (.text row.1) entries = some (children row.1))
      (below : forall row, row ∈ rows -> Fingerprinted (children row.1) row.2) :
      Fingerprinted (.branch inode entries)
        (FileState.finish sha256 { FileState.metadata (.branch inode entries) with
          treeDigest := some (sha256
            (rows.flatMap (fun row => Observer.entryBytes row.1.1 row.2.digest))) })

/-- What is hashed for the fingerprint of a tree, here or further down. -/
inductive Hashed : Folder -> List UInt8 -> Prop where
  | signed {item : Folder} {state : FileState} (printed : Fingerprinted sha256 item state) :
      Hashed item state.signed
  | content {inode : Inode} {bytes : List UInt8} : Hashed (.leaf (.file inode bytes)) bytes
  | listing {inode : Inode} {entries : List (EntryName × Folder)}
      {rows : List (FileName × FileState)} (children : FileName -> Folder)
      (names : (rows.map (fun row => EntryName.text row.1)).Perm
        (Folder.entryNames (.branch inode entries)))
      (sorted : (rows.map (fun row => row.1.1)).Pairwise (· ≤ ·))
      (present : forall row, row ∈ rows -> Rows.find (.text row.1) entries = some (children row.1))
      (below : forall row, row ∈ rows -> Fingerprinted sha256 (children row.1) row.2) :
      Hashed (.branch inode entries)
        (rows.flatMap (fun row => Observer.entryBytes row.1.1 row.2.digest))
  | deeper {inode : Inode} {entries : List (EntryName × Folder)} {name : EntryName}
      {child : Folder} {bytes : List UInt8} (present : Rows.find name entries = some child)
      (inside : Hashed child bytes) : Hashed (.branch inode entries) bytes

/-- What is seen of an item by itself: its metadata and its content. -/
def sight (item : Folder) : FileState × List UInt8 :=
  (FileState.metadata item, Observer.contentOf item)

variable {sha256}

theorem readable_of_metadata {item : Folder} {content tree : Option Text}
    (one : forall digest, content = some digest -> HexText digest)
    (two : forall digest, tree = some digest -> HexText digest) :
    ({ FileState.metadata item with contentDigest := content, treeDigest := tree } :
      FileState).Readable where
  device := quiet_natural _
  inode := quiet_natural _
  contentDigest digest given := (one digest given).quiet
  treeDigest digest given := (two digest given).quiet

/-- Two different strings that were hashed, one for each tree, with one digest. -/
def Collision (sha256 : List UInt8 -> Text) (item twin : Folder) : Prop :=
  ∃ bytes other, Hashed sha256 item bytes ∧ Hashed sha256 twin other ∧ bytes ≠ other ∧
    sha256 bytes = sha256 other

/-- Without a collision, strings with one digest are one string. -/
theorem hashed_eq {item twin : Folder} (distinct : ¬ Collision sha256 item twin)
    {bytes other : List UInt8} (one : Hashed sha256 item bytes) (two : Hashed sha256 twin other)
    (same : sha256 bytes = sha256 other) : bytes = other := by
  by_contra different
  exact distinct ⟨bytes, other, one, two, different, same⟩

theorem FileState.signed_finish (state : FileState) :
    (FileState.finish sha256 state).signed = state.signed := rfl

section Digests

variable (hex : forall bytes, HexText (sha256 bytes))

/-- States that are signed alike are alike. -/
theorem states_of_digest {item twin : Folder} {content tree otherContent otherTree : Option Text}
    (one : ({ FileState.metadata item with contentDigest := content, treeDigest := tree } :
      FileState).Readable)
    (two : ({ FileState.metadata twin with contentDigest := otherContent, treeDigest := otherTree } :
      FileState).Readable)
    (printed : Fingerprinted sha256 item (FileState.finish sha256 { FileState.metadata item with
      contentDigest := content, treeDigest := tree }))
    (twinPrinted : Fingerprinted sha256 twin (FileState.finish sha256 { FileState.metadata twin with
      contentDigest := otherContent, treeDigest := otherTree }))
    (distinct : ¬ Collision sha256 item twin)
    (same : (FileState.finish sha256 { FileState.metadata item with
        contentDigest := content, treeDigest := tree }).digest =
      (FileState.finish sha256 { FileState.metadata twin with
        contentDigest := otherContent, treeDigest := otherTree }).digest) :
    FileState.metadata item = FileState.metadata twin ∧ content = otherContent ∧ tree = otherTree := by
  have hashed := Hashed.signed printed
  have twinHashed := Hashed.signed twinPrinted
  rw [FileState.signed_finish] at hashed twinHashed
  have whole := FileState.signed_injective one two (hashed_eq distinct hashed twinHashed same)
  exact ⟨congrArg FileState.plain whole, congrArg FileState.contentDigest whole,
    congrArg FileState.treeDigest whole⟩

include hex in
theorem digest_noNull {state : FileState} {item : Folder} (printed : Fingerprinted sha256 item state) :
    '\x00' ∉ state.digest := by
  cases printed with
  | file => exact (hex _).noNull
  | directory rows children names sorted present below => exact (hex _).noNull

/-- Listings that are hashed alike have the same rows. -/
theorem rows_eq_of_listing {rows twinRows : List (FileName × FileState)}
    (quiet : forall row, row ∈ rows -> '\x00' ∉ row.2.digest)
    (twinQuiet : forall row, row ∈ twinRows -> '\x00' ∉ row.2.digest)
    (same : rows.flatMap (fun row => Observer.entryBytes row.1.1 row.2.digest) =
      twinRows.flatMap (fun row => Observer.entryBytes row.1.1 row.2.digest)) :
    rows.map (fun row => (row.1.1, row.2.digest)) =
      twinRows.map (fun row => (row.1.1, row.2.digest)) := by
  have texts : forall printed : List (FileName × FileState),
      printed.flatMap (fun row => Observer.entryBytes row.1.1 row.2.digest) =
        (printed.map (fun row => (row.1.1, row.2.digest))).flatMap
          (fun entry => Observer.entryBytes entry.1 entry.2) := by
    intro printed
    rw [List.flatMap_map]
  rw [texts, texts] at same
  exact Observer.entries_injective
    (List.forall_mem_map.mpr (fun row listed => ⟨row.1.2.2.2.1, quiet row listed⟩))
    (List.forall_mem_map.mpr (fun row listed => ⟨row.1.2.2.2.1, twinQuiet row listed⟩)) same

theorem exists_counterpart {rows twinRows : List (FileName × FileState)}
    (same : rows.map (fun row => (row.1.1, row.2.digest)) =
      twinRows.map (fun row => (row.1.1, row.2.digest)))
    {row : FileName × FileState} (listed : row ∈ rows) :
    ∃ twinRow, twinRow ∈ twinRows ∧ twinRow.1 = row.1 ∧ twinRow.2.digest = row.2.digest := by
  have mapped := List.mem_map_of_mem (f := fun row => (row.1.1, row.2.digest)) listed
  rw [same] at mapped
  rcases List.mem_map.mp mapped with ⟨twinRow, twinListed, equal⟩
  exact ⟨twinRow, twinListed, Subtype.ext (congrArg Prod.fst equal), congrArg Prod.snd equal⟩

theorem find_eq_none_of_unlisted {inode : Inode} {entries : List (EntryName × Folder)}
    {rows : List (FileName × FileState)} {name : EntryName}
    (names : (rows.map (fun row => EntryName.text row.1)).Perm
      (Folder.entryNames (.branch inode entries)))
    (unlisted : ¬ ∃ row, row ∈ rows ∧ EntryName.text row.1 = name) :
    Rows.find name entries = none := by
  rw [Rows.find_eq_none_iff]
  intro member
  have listed := names.mem_iff.mpr (List.mem_dedup.mpr member)
  rcases List.mem_map.mp listed with ⟨row, rowListed, equal⟩
  exact unlisted ⟨row, rowListed, equal⟩

include hex in
/-- Trees with one fingerprint look the same everywhere, unless two of the
strings hashed for them collide. -/
theorem Fingerprinted.sight_eq {item twin : Folder} {state other : FileState}
    (one : Fingerprinted sha256 item state) (two : Fingerprinted sha256 twin other)
    (distinct : ¬ Collision sha256 item twin) (same : state.digest = other.digest)
    (path : List EntryName) :
    (item.lookup path).map sight = (twin.lookup path).map sight := by
  have digests : forall {bytes digest}, some (sha256 bytes) = some digest -> HexText digest := by
    intro bytes digest given
    rw [← Option.some.inj given]
    exact hex bytes
  have missing : forall {digest : Text}, none = some digest -> HexText digest := by
    intro digest given
    cases given
  induction one generalizing twin other path with
  | @file inode bytes =>
      have onePrinted : Fingerprinted sha256 (.leaf (.file inode bytes)) _ := .file
      have twoPrinted := two
      cases two with
      | @file twinInode twinBytes =>
          rcases states_of_digest
            (readable_of_metadata (fun _ given => digests given) (fun _ given => missing given))
            (readable_of_metadata (fun _ given => digests given) (fun _ given => missing given))
            onePrinted twoPrinted distinct same with ⟨metadata, content, _⟩
          have bytesEqual : bytes = twinBytes :=
            hashed_eq distinct .content .content (Option.some.inj content)
          cases path with
          | nil =>
              rw [NamedTree.lookup_nil, NamedTree.lookup_nil]
              exact congrArg some (Prod.ext metadata bytesEqual)
          | cons name rest => rfl
      | @directory twinInode twinEntries rows children names sorted present below =>
          rcases states_of_digest
            (readable_of_metadata (fun _ given => digests given) (fun _ given => missing given))
            (readable_of_metadata (fun _ given => missing given) (fun _ given => digests given))
            onePrinted twoPrinted distinct same with ⟨_, content, _⟩
          cases content
  | @directory inode entries rows children names sorted present below ih =>
      have onePrinted := @Fingerprinted.directory sha256 inode entries rows children names sorted
        present below
      have twoPrinted := two
      cases two with
      | @file twinInode twinBytes =>
          rcases states_of_digest
            (readable_of_metadata (fun _ given => missing given) (fun _ given => digests given))
            (readable_of_metadata (fun _ given => digests given) (fun _ given => missing given))
            onePrinted twoPrinted distinct same with ⟨_, content, _⟩
          cases content
      | @directory twinInode twinEntries twinRows twinChildren twinNames twinSorted twinPresent
          twinBelow =>
          rcases states_of_digest
            (readable_of_metadata (fun _ given => missing given) (fun _ given => digests given))
            (readable_of_metadata (fun _ given => missing given) (fun _ given => digests given))
            onePrinted twoPrinted distinct same with ⟨metadata, _, tree⟩
          have bytesEqual := hashed_eq distinct (.listing children names sorted present below)
            (.listing twinChildren twinNames twinSorted twinPresent twinBelow)
            (Option.some.inj tree)
          have rowsEqual := rows_eq_of_listing
            (fun row listed => digest_noNull hex (below row listed))
            (fun row listed => digest_noNull hex (twinBelow row listed)) bytesEqual
          cases path with
          | nil =>
              rw [NamedTree.lookup_nil, NamedTree.lookup_nil]
              exact congrArg some (Prod.ext metadata rfl)
          | cons name rest =>
              rw [NamedTree.lookup_branch, NamedTree.lookup_branch]
              by_cases known : ∃ row, row ∈ rows ∧ EntryName.text row.1 = name
              · rcases known with ⟨row, listed, rfl⟩
                rcases exists_counterpart rowsEqual listed with ⟨twinRow, twinListed, equal, digest⟩
                have twinFound := twinPresent twinRow twinListed
                rw [equal] at twinFound
                rw [present row listed, twinFound, Option.bind_some, Option.bind_some]
                have printed := twinBelow twinRow twinListed
                rw [equal] at printed
                have inside : ¬ Collision sha256 (children row.1) (twinChildren row.1) := by
                  rintro ⟨bytes, twinBytes, hashed, twinHashed, different, equal⟩
                  exact distinct ⟨bytes, twinBytes, .deeper (present row listed) hashed,
                    .deeper twinFound twinHashed, different, equal⟩
                exact ih row listed printed inside digest.symm rest
              · -- every row has its counterpart, so the other directory lacks the name as well
                have twinKnown : ¬ ∃ row, row ∈ twinRows ∧ EntryName.text row.1 = name := by
                  rintro ⟨twinRow, twinListed, equal⟩
                  rcases exists_counterpart rowsEqual.symm twinListed with ⟨row, listed, named, _⟩
                  exact known ⟨row, listed, named ▸ equal⟩
                rw [find_eq_none_of_unlisted names known,
                  find_eq_none_of_unlisted twinNames twinKnown]

end Digests

end Trees

/-! ## What a capture includes -/

/-- The path that the names lead to. -/
def below (path : RelativePath) (names : List FileName) : RelativePath :=
  names.foldl (fun path name => childPath path name.1) path

/-- The size of the file at a path. -/
def heldBytes (item : Folder) (names : List EntryName) : Nat :=
  match item.lookup names with
  | some (.leaf (.file inode _)) => inode.size
  | _ => 0

namespace Observer

variable {observer : Observer}

/-- A directory may be listed, and a file may be opened for reading. -/
def Readable (observer : Observer) (path : RelativePath) : Folder -> Prop
  | .branch _ _ => checkAccess observer.context path .read = .ok ()
  | .leaf _ => checkAccess observer.context (canonicalText path) .read = .ok ()

/-- A list of everything at and below a path, all of it observed. -/
structure Inventory (observer : Observer) (levels : Nat) (path : RelativePath) (item : Folder)
    (all : List (List EntryName)) : Prop where
  distinct : all.Nodup
  complete : forall names, (item.lookup names).isSome = true -> names ∈ all
  included : forall names, names ∈ all -> ∃ (texts : List FileName) (child : Folder),
    names = texts.map .text ∧
    item.lookup names = some child ∧ child.kind ≠ .other ∧ texts.length < levels ∧
    checkAccess observer.context (canonicalText (below path texts)) .discover = .ok () ∧
    observer.Readable (below path texts) child ∧ child.hiddenLink observer.context = false

/-- What a fully observed state says, and what it has cost. -/
structure Found (observer : Observer) (levels : Nat) (path : RelativePath) (budget after : Budget)
    (state : FileState) (item : Folder) (all : List (List EntryName)) : Prop where
  walked : observer.tree.walk (segmentNames path.value) = .ok item
  printed : Fingerprinted observer.sha256 item state
  inventory : Inventory observer levels path item all
  nodes : after.nodes = budget.nodes + all.length
  bytes : after.bytes = budget.bytes + (all.map (heldBytes item)).sum
  fewNodes : after.nodes ≤ maxObservedNodes
  fewBytes : budget.bytes ≤ maxObservedBytes -> after.bytes ≤ maxObservedBytes

/-! ### Files -/

theorem readLoop_ok {path : RelativePath} {limit reads : Nat} {hashed left result : List UInt8}
    (done : observer.readLoop path limit reads hashed left = .ok result)
    (enough : left.length < reads) : result = hashed ++ left := by
  induction reads generalizing hashed left with
  | zero => exact absurd enough (Nat.not_lt_zero _)
  | succ reads ih =>
      unfold readLoop at done
      simp only [bind_eq_ok] at done
      rcases done with ⟨_, _, _, _, rest⟩
      split at rest
      · rename_i ended
        cases rest
        have nothing : left = [] := by
          cases left with
          | nil => rfl
          | cons first others => simp [observationBuffer] at ended
        rw [nothing, List.append_nil]
      · rename_i continues
        simp only [bind_eq_ok, refuse_eq_ok] at rest
        rcases rest with ⟨_, _, further⟩
        have something : left ≠ [] := by
          rintro rfl
          exact continues (by simp)
        have shorter : (left.drop observationBuffer).length < reads := by
          have := List.length_pos_of_ne_nil something
          rw [List.length_drop]
          unfold observationBuffer
          omega
        rw [ih further shorter, List.append_assoc, List.take_append_drop]

theorem captureReadableFile_ok {path : RelativePath} {file : Folder} {state : FileState}
    {digest : Text} (done : observer.captureReadableFile path file = .ok state)
    (given : state.contentDigest = some digest) : digest = observer.sha256 (contentOf file) := by
  unfold captureReadableFile at done
  simp only [bind_eq_ok] at done
  rcases done with ⟨_, _, rest⟩
  split at rest
  · cases rest
    cases given
  · simp only [bind_eq_ok, refuse_eq_ok] at rest
    rcases rest with ⟨_, _, hashed, looped, _, _, _, _, finished⟩
    cases finished
    have whole := readLoop_ok looped (Nat.lt_succ_self _)
    rw [List.nil_append] at whole
    exact (Option.some.inj given).symm.trans (congrArg observer.sha256 whole)

theorem openAt_walked {path : RelativePath} {probe : Probe} {mode : OpenMode} {item : Folder}
    (opened : observer.openAt path probe mode = .ok item) :
    OpenedInode observer.context observer.tree path mode item :=
  (openInode_ok opened).1

/-- A file that has a content digest has been read from its start to its end. -/
theorem captureContent_ok {path : RelativePath} {item : Folder} {digest : Text}
    {budget after : Budget} (walked : observer.tree.walk (segmentNames path.value) = .ok item)
    (done : observer.captureContent path item budget = (.ok (some digest), after)) :
    checkAccess observer.context (canonicalText path) .read = .ok () ∧
      digest = observer.sha256 (contentOf item) ∧
      after = ⟨budget.nodes, budget.bytes + item.inode.size⟩ ∧
      budget.bytes + item.inode.size ≤ maxObservedBytes := by
  unfold captureContent at done
  rw [Capture.bind_ok] at done
  rcases done with ⟨known, between, used, rest⟩
  rcases Capture.used_ok.mp used with ⟨rfl, rfl⟩
  split at rest
  · cases (Capture.pure_ok.mp rest).1
  · rename_i fits
    cases opened : observer.openAt path .openFile .read with
    | error problem =>
      rw [opened] at rest
      cases (Capture.pure_ok.mp rest).1
    | ok file =>
      rw [opened] at rest
      have same : file = item := by
        have again := (openAt_walked opened).walked
        rw [walked] at again
        exact (Except.ok.inj again).symm
      subst same
      simp only [Capture.bind_ok, Capture.lift_ok, Capture.pure_ok, Capture.spend_ok] at rest
      rcases rest with ⟨_, _, ⟨_, rfl⟩, _, _, ⟨_, rfl⟩, observed, _, ⟨read, rfl⟩, _, _, ⟨_, rfl⟩, _, _,
        rfl, given, rfl⟩
      exact ⟨(openAt_walked opened).allowed, captureReadableFile_ok read given, rfl,
        Nat.le_of_not_lt fits⟩

/-! ### Names -/

theorem readNames_ok {path : RelativePath} {nodes : Nat} {entries : List EntryName}
    {names result : List Text} (done : observer.readNames path nodes entries names = .ok result) :
    ∃ texts : List FileName, entries = texts.map .text ∧
      result = names ++ texts.map Subtype.val := by
  induction entries generalizing names with
  | nil =>
      cases done
      exact ⟨[], rfl, (List.append_nil _).symm⟩
  | cons entry rest ih =>
      unfold readNames at done
      simp only [bind_eq_ok] at done
      rcases done with ⟨_, _, _, _, further⟩
      cases entry with
      | raw bytes => cases further
      | text name =>
          rcases ih further with ⟨texts, split, whole⟩
          refine ⟨name :: texts, by rw [split, List.map_cons], ?_⟩
          rw [whole, List.append_assoc, List.map_cons, List.singleton_append]

/-- Sorted names are names in another order. -/
theorem exists_sorted (texts : List FileName) :
    ∃ sorted : List FileName, sorted.Perm texts ∧
      (texts.map Subtype.val).insertionSort (· ≤ ·) = sorted.map Subtype.val := by
  have shuffled := List.perm_insertionSort (· ≤ ·) (texts.map Subtype.val)
  refine ⟨((texts.map Subtype.val).insertionSort (· ≤ ·)).filterMap FileName.of, ?_, ?_⟩
  · have read := shuffled.filterMap FileName.of
    have back : (texts.map Subtype.val).filterMap FileName.of = texts := by
      rw [List.filterMap_map]
      have each : FileName.of ∘ Subtype.val = (some : FileName -> Option FileName) := by
        funext name
        exact FileName.of_val name
      rw [each, List.filterMap_some]
    rw [back] at read
    exact read
  · have proper : forall text, text ∈ (texts.map Subtype.val).insertionSort (· ≤ ·) ->
        ProperName text := by
      intro text listed
      rcases List.mem_map.mp (shuffled.mem_iff.mp listed) with ⟨name, _, rfl⟩
      exact name.2
    clear shuffled
    generalize (texts.map Subtype.val).insertionSort (· ≤ ·) = sorted at proper ⊢
    induction sorted with
    | nil => rfl
    | cons first rest ih =>
        rcases List.forall_mem_cons.mp proper with ⟨here, further⟩
        have read : FileName.of first = some ⟨first, here⟩ := dif_pos here
        rw [List.filterMap_cons, read, List.map_cons, ← ih further]

/-! ### Directories -/

/-- An entry of a directory that has been observed. -/
structure Part where
  name : FileName
  state : FileState
  item : Folder
  all : List (List EntryName)

/-- Everything in a directory, from what is in its entries. -/
def everything (parts : List Part) : List (List EntryName) :=
  [] :: parts.flatMap (fun part => part.all.map (List.cons (.text part.name)))

/-- Entries that were observed one after the other. -/
inductive Chain (observer : Observer) (levels : Nat) (path : RelativePath) :
    Budget -> Budget -> List Part -> Prop where
  | nil {budget : Budget} : Chain observer levels path budget budget []
  | cons {part : Part} {parts : List Part} {budget between after : Budget}
      (found : Found observer levels (childPath path part.name.1) budget between part.state part.item
        part.all)
      (rest : Chain observer levels path between after parts) :
      Chain observer levels path budget after (part :: parts)

section Chains

variable {levels : Nat} {path : RelativePath} {budget after : Budget} {parts : List Part}

theorem Chain.found (chain : Chain observer levels path budget after parts) :
    forall part, part ∈ parts -> ∃ early late,
      Found observer levels (childPath path part.name.1) early late part.state part.item part.all := by
  induction chain with
  | nil =>
      intro part listed
      cases listed
  | cons found _ ih => exact List.forall_mem_cons.mpr ⟨⟨_, _, found⟩, ih⟩

theorem Chain.nodes (chain : Chain observer levels path budget after parts) :
    after.nodes + 1 = budget.nodes + (everything parts).length := by
  induction chain with
  | nil => rfl
  | cons found _ ih =>
      have here := found.nodes
      unfold everything at ih ⊢
      rw [List.flatMap_cons, List.length_cons, List.length_append, List.length_map]
      rw [List.length_cons] at ih
      omega

theorem Chain.fewNodes (chain : Chain observer levels path budget after parts)
    (few : budget.nodes ≤ maxObservedNodes) : after.nodes ≤ maxObservedNodes := by
  induction chain with
  | nil => exact few
  | cons found _ ih => exact ih found.fewNodes

theorem Chain.fewBytes (chain : Chain observer levels path budget after parts)
    (few : budget.bytes ≤ maxObservedBytes) : after.bytes ≤ maxObservedBytes := by
  induction chain with
  | nil => exact few
  | cons found _ ih => exact ih (found.fewBytes few)

theorem heldBytes_branch {inode : Inode} {entries : List (EntryName × Folder)} {name : EntryName}
    {child : Folder} (present : Rows.find name entries = some child) (rest : List EntryName) :
    heldBytes (.branch inode entries) (name :: rest) = heldBytes child rest := by
  unfold heldBytes
  rw [NamedTree.lookup_branch, present, Option.bind_some]

theorem Chain.bytes (chain : Chain observer levels path budget after parts) {inode : Inode}
    {entries : List (EntryName × Folder)}
    (present : forall part, part ∈ parts -> Rows.find (.text part.name) entries = some part.item) :
    after.bytes =
      budget.bytes + ((everything parts).map (heldBytes (.branch inode entries))).sum := by
  induction chain with
  | nil => rfl
  | @cons part parts budget between after found _ ih =>
      rcases List.forall_mem_cons.mp present with ⟨here, further⟩
      have bytes := found.bytes
      have rest := ih further
      have same : (part.all.map (List.cons (EntryName.text part.name))).map
          (heldBytes (.branch inode entries)) = part.all.map (heldBytes part.item) := by
        rw [List.map_map]
        apply List.map_congr_left
        intro names _
        exact heldBytes_branch here names
      unfold everything at rest ⊢
      rw [List.map_cons, List.sum_cons] at rest ⊢
      rw [List.flatMap_cons, List.map_append, List.sum_append, same]
      omega

theorem Chain.printed (chain : Chain observer levels path budget after parts) {inode : Inode}
    {entries : List (EntryName × Folder)}
    (names : (parts.map (fun part => EntryName.text part.name)).Perm
      (Folder.entryNames (.branch inode entries)))
    (sorted : (parts.map (fun part => part.name.1)).Pairwise (· ≤ ·))
    (present : forall part, part ∈ parts -> Rows.find (.text part.name) entries = some part.item) :
    Fingerprinted observer.sha256 (.branch inode entries)
      (FileState.finish observer.sha256 { FileState.metadata (.branch inode entries) with
        treeDigest := some (observer.sha256
          (parts.flatMap (fun part => entryBytes part.name.1 part.state.digest))) }) := by
  have rows := @Fingerprinted.directory observer.sha256 inode entries
    (parts.map (fun part => (part.name, part.state)))
    (fun name => (Rows.find (.text name) entries).getD (.branch inode [])) (by
      rw [List.map_map]
      exact names) (by
      rw [List.map_map]
      exact sorted) (by
      intro row listed
      rcases List.mem_map.mp listed with ⟨part, partListed, rfl⟩
      rw [present part partListed]
      rfl) (by
      intro row listed
      rcases List.mem_map.mp listed with ⟨part, partListed, rfl⟩
      rcases chain.found part partListed with ⟨_, _, found⟩
      rw [present part partListed]
      exact found.printed)
  rw [List.flatMap_map] at rows
  exact rows

theorem captureChildren_ok {inner : RelativePath -> Capture FileState}
    (sound : forall child budget after state, inner child budget = (.ok state, after) ->
      state.fullyObserved = true -> ∃ item all, Found observer levels child budget after state item all)
    {names : List FileName} {hashed result : List UInt8}
    (done : captureChildren inner path (names.map Subtype.val) hashed budget = (.ok result, after)) :
    ∃ parts : List Part, parts.map Part.name = names ∧
      result = hashed ++ parts.flatMap (fun part => entryBytes part.name.1 part.state.digest) ∧
      Chain observer levels path budget after parts := by
  induction names generalizing hashed budget with
  | nil =>
      rcases Capture.pure_ok.mp done with ⟨rfl, rfl⟩
      exact ⟨[], rfl, (List.append_nil _).symm, .nil⟩
  | cons name names ih =>
      rw [List.map_cons] at done
      unfold captureChildren at done
      simp only [Capture.bind_ok, Capture.lift_ok, refuse_eq_ok] at done
      rcases done with ⟨state, between, here, _, _, ⟨observed, rfl⟩, rest⟩
      have full : state.fullyObserved = true := by simpa using observed
      rcases sound _ _ _ _ here full with ⟨item, all, found⟩
      rcases ih rest with ⟨parts, named, whole, chain⟩
      refine ⟨⟨name, state, item, all⟩ :: parts, by rw [List.map_cons, named], ?_, .cons found chain⟩
      rw [whole, List.flatMap_cons, List.append_assoc]

/-- The entries of a directory make up its inventory. -/
theorem inventory_directory {inode : Inode} {entries : List (EntryName × Folder)}
    (opened : OpenedInode observer.context observer.tree path .path (.branch inode entries))
    (readable : checkAccess observer.context path .read = .ok ())
    (chain : Chain observer levels path budget after parts)
    (names : (parts.map (fun part => EntryName.text part.name)).Perm
      (Folder.entryNames (.branch inode entries)))
    (present : forall part, part ∈ parts -> Rows.find (.text part.name) entries = some part.item) :
    Inventory observer (levels + 1) path (.branch inode entries) (everything parts) where
  distinct := by
    have different : (parts.map (fun part => EntryName.text part.name)).Nodup :=
      names.nodup_iff.mpr (List.nodup_dedup _)
    unfold everything
    rw [List.nodup_cons]
    constructor
    · intro listed
      rcases List.mem_flatMap.mp listed with ⟨part, _, inside⟩
      rcases List.mem_map.mp inside with ⟨rest, _, impossible⟩
      cases impossible
    · rw [List.nodup_flatMap]
      constructor
      · intro part listed
        rcases chain.found part listed with ⟨_, _, found⟩
        exact found.inventory.distinct.map (List.cons_injective)
      · rw [List.Nodup, List.pairwise_map] at different
        apply different.imp
        intro part other apart names one two
        rcases List.mem_map.mp one with ⟨rest, _, rfl⟩
        rcases List.mem_map.mp two with ⟨others, _, same⟩
        exact apart (List.cons.inj same).1.symm
  complete := by
    intro path there
    cases path with
    | nil => exact List.mem_cons_self
    | cons name rest =>
        rw [NamedTree.lookup_branch] at there
        cases here : Rows.find name entries with
        | none =>
            rw [here] at there
            cases there
        | some child =>
            rw [here, Option.bind_some] at there
            have listed : name ∈ Folder.entryNames (.branch inode entries) := by
              apply List.mem_dedup.mpr
              by_contra absent
              rw [Rows.find_eq_none_iff.mpr absent] at here
              cases here
            rcases List.mem_map.mp (names.mem_iff.mpr listed) with ⟨part, partListed, rfl⟩
            have same := (present part partListed).symm.trans here
            rw [← Option.some.inj same] at there
            rcases chain.found part partListed with ⟨_, _, found⟩
            apply List.mem_cons_of_mem
            exact List.mem_flatMap.mpr ⟨part, partListed,
              List.mem_map_of_mem (found.inventory.complete rest there)⟩
  included := by
    intro path listed
    rcases List.mem_cons.mp listed with rfl | inner
    · refine ⟨[], .branch inode entries, rfl, NamedTree.lookup_nil _, ?_, Nat.succ_pos _,
        opened.allowed, readable, rfl⟩
      intro impossible
      cases impossible
    · rcases List.mem_flatMap.mp inner with ⟨part, partListed, inside⟩
      rcases List.mem_map.mp inside with ⟨rest, restListed, rfl⟩
      rcases chain.found part partListed with ⟨_, _, found⟩
      rcases found.inventory.included rest restListed with
        ⟨texts, child, rfl, reached, kind, shallow, allowed, readable, linked⟩
      refine ⟨part.name :: texts, child, rfl, ?_, kind, Nat.succ_lt_succ shallow, allowed,
        readable, linked⟩
      rw [NamedTree.lookup_branch, present part partListed]
      exact reached

end Chains

/-! ### Captures -/

theorem inventory_file {levels : Nat} {path : RelativePath} {inode : Inode} {bytes : List UInt8}
    (opened : OpenedInode observer.context observer.tree path .path (.leaf (.file inode bytes)))
    (readable : checkAccess observer.context (canonicalText path) .read = .ok ()) :
    Inventory observer (levels + 1) path (.leaf (.file inode bytes)) [[]] where
  distinct := List.nodup_singleton _
  complete := by
    intro names there
    cases names with
    | nil => exact List.mem_cons_self
    | cons name rest => cases there
  included := by
    intro names listed
    rw [List.mem_singleton.mp listed]
    refine ⟨[], .leaf (.file inode bytes), rfl, NamedTree.lookup_nil _, ?_, Nat.succ_pos _,
      opened.allowed, readable, opened.linked⟩
    intro impossible
    cases impossible

section Captured

variable {levels : Nat} {path : RelativePath} {start after : Budget} {state : FileState}

/-- What the digest of a tree says, when there is one. -/
theorem captureTree_ok {inner : RelativePath -> Capture FileState}
    (sound : forall child budget after state, inner child budget = (.ok state, after) ->
      state.fullyObserved = true -> ∃ item all, Found observer levels child budget after state item all)
    {budget : Budget} {inode : Inode} {entries : List (EntryName × Folder)} {digest : Text}
    (walked : observer.tree.walk (segmentNames path.value) = .ok (.branch inode entries))
    (done : observer.captureTree inner path (.branch inode entries) budget = (.ok digest, after)) :
    checkAccess observer.context path .read = .ok () ∧
      ∃ parts : List Part, Chain observer levels path budget after parts ∧
      (parts.map (fun part => part.name.1)).Pairwise (· ≤ ·) ∧
      (parts.map (fun part => EntryName.text part.name)).Perm
        (Folder.entryNames (.branch inode entries)) ∧
      (forall part, part ∈ parts -> Rows.find (.text part.name) entries = some part.item) ∧
      digest = observer.sha256
        (parts.flatMap (fun part => entryBytes part.name.1 part.state.digest)) := by
  unfold captureTree at done
  simp only [Capture.bind_ok, Capture.lift_ok, Capture.used_ok, Capture.pure_ok] at done
  rcases done with ⟨_, _, ⟨allowed, rfl⟩, _, _, ⟨_, rfl⟩, _, _, ⟨rfl, rfl⟩, names, _, ⟨read, rfl⟩,
    hashed, between, children, _, _, ⟨_, rfl⟩, _, _, ⟨_, rfl⟩, rfl, rfl⟩
  rcases readNames_ok read with ⟨texts, split, rfl⟩
  rcases exists_sorted texts with ⟨sorted, shuffled, arranged⟩
  rw [List.nil_append, arranged] at children
  rcases captureChildren_ok sound children with ⟨parts, named, whole, chain⟩
  have inOrder := List.pairwise_insertionSort (· ≤ ·) (texts.map Subtype.val)
  rw [arranged, ← named, List.map_map] at inOrder
  refine ⟨mapError_eq_ok.mp allowed, parts, chain, inOrder, ?_, ?_,
    by rw [whole, List.nil_append]⟩
  · have mapped := shuffled.map EntryName.text
    rw [← named, List.map_map] at mapped
    rw [split]
    exact mapped
  · intro part listed
    rcases chain.found part listed with ⟨_, _, found⟩
    have child := found.walked
    rw [segmentNames_childPath, Folder.walk_append walked] at child
    exact Folder.walk_name child

theorem captureItem_ok {inner : RelativePath -> Capture FileState}
    (sound : forall child budget after state, inner child budget = (.ok state, after) ->
      state.fullyObserved = true -> ∃ item all, Found observer levels child budget after state item all)
    (few : start.nodes + 1 ≤ maxObservedNodes)
    (done : observer.captureItem inner path ⟨start.nodes + 1, start.bytes⟩ = (.ok state, after))
    (full : state.fullyObserved = true) :
    ∃ item all, Found observer (levels + 1) path start after state item all := by
  unfold captureItem at done
  simp only [Capture.bind_ok, Capture.lift_ok] at done
  rcases done with ⟨pinned, _, ⟨pin, rfl⟩, _, _, ⟨_, rfl⟩, rest⟩
  have opened := openAt_walked pin
  cases pinned with
  | leaf content =>
      cases content with
      | file inode bytes =>
          simp only [Folder.kind, Capture.bind_ok, Capture.pure_ok] at rest
          rcases rest with ⟨digest, _, content, rfl, rfl⟩
          cases digest with
          | none => cases full
          | some digest =>
              rcases captureContent_ok opened.walked content with ⟨readable, rfl, spent, fits⟩
              refine ⟨.leaf (.file inode bytes), [[]], ⟨opened.walked, .file,
                inventory_file opened readable, ?_, ?_, ?_, ?_⟩⟩
              · rw [spent]
                rfl
              · rw [spent]
                rfl
              · rw [spent]
                exact few
              · intro _
                rw [spent]
                exact fits
      | symlink inode =>
          rcases Capture.pure_ok.mp rest with ⟨rfl, _⟩
          cases full
      | special inode =>
          rcases Capture.pure_ok.mp rest with ⟨rfl, _⟩
          cases full
  | branch inode entries =>
      simp only [Folder.kind, Capture.bind_ok, Capture.pure_ok] at rest
      rcases rest with ⟨digest, _, tree, rfl, rfl⟩
      cases digest with
      | none => cases full
      | some digest =>
          rcases captureTree_ok sound opened.walked (Capture.succeeded_some.mp tree) with
            ⟨readable, parts, chain, sorted, names, present, rfl⟩
          have nodes := chain.nodes
          have printed := chain.printed names sorted present
          refine ⟨.branch inode entries, everything parts, ⟨opened.walked, printed,
            inventory_directory opened readable chain names present, ?_, chain.bytes present,
            chain.fewNodes few, chain.fewBytes⟩⟩
          rw [Nat.add_right_comm] at nodes
          exact Nat.add_right_cancel nodes

/-- A state that is fully observed says everything about a tree. -/
theorem captureInner_ok (done : observer.captureInner levels path start = (.ok state, after))
    (full : state.fullyObserved = true) :
    ∃ item all, Found observer levels path start after state item all := by
  induction levels generalizing path start after state with
  | zero =>
      unfold captureInner at done
      simp only [Capture.bind_ok, Capture.lift_ok] at done
      rcases done with ⟨_, _, _, _, _, _, _, _, _, _, _, _, impossible, _⟩
      cases impossible
  | succ levels ih =>
      unfold captureInner at done
      simp only [Capture.bind_ok, Capture.lift_ok, Capture.spend_ok, Capture.used_ok, refuse_eq_ok,
        decide_eq_false_iff_not, Nat.not_lt] at done
      rcases done with ⟨_, _, ⟨_, rfl⟩, _, _, rfl, _, _, ⟨rfl, rfl⟩, _, _, ⟨few, rfl⟩, rest⟩
      exact captureItem_ok (fun _ _ _ _ => ih) few rest full

theorem capture_ok {observer : Observer} {path : RelativePath} {state : FileState}
    (done : observer.capture path = .ok state) (full : state.fullyObserved = true) :
    ∃ after item all, Found observer (maxObservedDepth + 1) path ⟨0, 0⟩ after state item all := by
  have whole : observer.captureInner (maxObservedDepth + 1) path ⟨0, 0⟩ =
      (.ok state, (observer.captureInner (maxObservedDepth + 1) path ⟨0, 0⟩).2) :=
    Prod.ext done rfl
  rcases captureInner_ok whole full with ⟨item, all, found⟩
  exact ⟨_, item, all, found⟩

/-- A whole capture stays within its limits. -/
theorem Found.within {observer : Observer} {path : RelativePath} {levels : Nat} {after : Budget}
    {state : FileState} {item : Folder} {all : List (List EntryName)}
    (found : Found observer levels path ⟨0, 0⟩ after state item all) :
    all.length ≤ maxObservedNodes ∧ (all.map (heldBytes item)).sum ≤ maxObservedBytes := by
  have nodes := found.nodes
  have bytes := found.bytes
  have few := found.fewNodes
  have fewBytes := found.fewBytes (Nat.zero_le _)
  constructor <;> omega

/-- Captures that say the same were taken of the same tree, or of two with a collision. -/
theorem Found.sight_eq {observer twin : Observer} {path other : RelativePath} {levels : Nat}
    {budget after twinBudget twinAfter : Budget} {state : FileState} {item twinItem : Folder}
    {all twinAll : List (List EntryName)} (hex : forall bytes, HexText (observer.sha256 bytes))
    (same : twin.sha256 = observer.sha256)
    (found : Found observer levels path budget after state item all)
    (twinFound : Found twin levels other twinBudget twinAfter state twinItem twinAll) :
    Collision observer.sha256 item twinItem ∨
      forall names, (item.lookup names).map sight = (twinItem.lookup names).map sight := by
  have printed := twinFound.printed
  rw [same] at printed
  apply or_iff_not_imp_left.mpr
  intro distinct
  exact found.printed.sight_eq hex printed distinct rfl

end Captured

end Observer

/-- Two fully observed trees with one fingerprint are the same at every path:
the same names, kinds, metadata and contents.  Otherwise two of the strings
hashed for them have one digest. -/
theorem fingerprints_sound (first second : Observer) (path other : RelativePath) (state : FileState)
    (same : second.sha256 = first.sha256) (hex : forall bytes, HexText (first.sha256 bytes))
    (one : first.capture path = .ok state) (two : second.capture other = .ok state)
    (full : state.fullyObserved = true) :
    ∃ item twin, first.tree.walk (segmentNames path.value) = .ok item ∧
      second.tree.walk (segmentNames other.value) = .ok twin ∧
      (Collision first.sha256 item twin ∨
        forall names, (item.lookup names).map sight = (twin.lookup names).map sight) := by
  rcases Observer.capture_ok one full with ⟨_, item, _, found⟩
  rcases Observer.capture_ok two full with ⟨_, twin, _, twinFound⟩
  exact ⟨item, twin, found.walked, twinFound.walked, found.sight_eq hex same twinFound⟩

/-! ### A directory that was moved -/

namespace OneMove

/-- Two digits for each byte, in place of a digest. -/
def hexText (bytes : List UInt8) : Text :=
  bytes.flatMap (fun byte => [Nat.digitChar (byte.toNat / 16), Nat.digitChar (byte.toNat % 16)])

theorem hexText_digits (bytes : List UInt8) : HexText (hexText bytes) := by
  have each : forall digit, digit < 16 -> (Nat.digitChar digit).isDigit = true ∨
      Nat.digitChar digit ∈ "abcdef".toList := by decide
  intro symbol member
  rcases List.mem_flatMap.mp member with ⟨byte, _, inside⟩
  have small := byte.toNat_lt
  rcases List.mem_cons.mp inside with rfl | last
  · exact each _ (by omega)
  · rw [List.mem_singleton.mp last]
    exact each _ (by omega)

def name (text : Text) (proper : ProperName text) : EntryName := .text ⟨text, proper⟩

def inode (number size : Nat) : Inode := ⟨1, number, 420, 1000, 1000, size, 1, 5, 0, 5, 0⟩

def file : Folder := .leaf (.file (inode 12 3) [1, 2, 3])

def directory : Folder := .branch (inode 13 4096) [(name "b".toList (by decide), file)]

def before : Observer where
  tree := .branch (inode 10 4096) [(name "a".toList (by decide), directory)]
  context := none
  sha256 := hexText
  faults := fun _ _ => none

/-- The directory has another name now. -/
def moved : Observer :=
  { before with tree := .branch (inode 10 4096) [(name "d".toList (by decide), directory)] }

def state : FileState :=
  FileState.finish hexText { FileState.metadata file with
    contentDigest := some (hexText [1, 2, 3]) }

def directoryState : FileState :=
  FileState.finish hexText { FileState.metadata directory with
    treeDigest := some (hexText (Observer.entryBytes "b".toList state.digest)) }

end OneMove

open OneMove in
theorem fingerprints_sound_moved :
    ∃ item twin, before.tree.walk (segmentNames "a".toList) = .ok item ∧
      moved.tree.walk (segmentNames "d".toList) = .ok twin ∧
      (Collision hexText item twin ∨
        forall names, (item.lookup names).map sight = (twin.lookup names).map sight) :=
  fingerprints_sound before moved ⟨"a".toList⟩ ⟨"d".toList⟩ directoryState rfl hexText_digits rfl
    rfl rfl

/-- A fully observed tree holds at most ten thousand entries and 64 MiB, no
deeper than 64 levels, and every one of them is a file or a directory with a
text for a name, which the policy shows and the capture has read. -/
theorem full_observation_complete (observer : Observer) (path : RelativePath) (state : FileState)
    (done : observer.capture path = .ok state) (full : state.fullyObserved = true) :
    ∃ item all, observer.tree.walk (segmentNames path.value) = .ok item ∧
      Fingerprinted observer.sha256 item state ∧
      Observer.Inventory observer (maxObservedDepth + 1) path item all ∧
      all.length ≤ maxObservedNodes ∧ (all.map (heldBytes item)).sum ≤ maxObservedBytes := by
  rcases Observer.capture_ok done full with ⟨after, item, all, found⟩
  exact ⟨item, all, found.walked, found.printed, found.inventory, found.within⟩

open OneMove in
theorem full_observation_complete_moved :
    ∃ item all, moved.tree.walk (segmentNames "d".toList) = .ok item ∧
      Fingerprinted hexText item directoryState ∧
      Observer.Inventory moved (maxObservedDepth + 1) ⟨"d".toList⟩ item all ∧
      all.length ≤ maxObservedNodes ∧ (all.map (heldBytes item)).sum ≤ maxObservedBytes :=
  full_observation_complete moved ⟨"d".toList⟩ directoryState rfl rfl

/-- A state that is fully observed leaves nothing out: everything at and below the path
is a file or a directory that was itself observed.  States that are equal were observed
of trees that are equal, unless two of the strings hashed for them have one digest. -/
theorem observed_states_tell_trees (sha256 : List UInt8 -> Text)
    (hex : forall bytes, HexText (sha256 bytes)) (first second : Observer)
    (hashes : first.sha256 = sha256 ∧ second.sha256 = sha256) (path other : RelativePath)
    (state twinState : FileState) (one : first.capture path = .ok state)
    (two : second.capture other = .ok twinState) :
    (state.fullyObserved = true -> ∃ item all,
      first.tree.walk (segmentNames path.value) = .ok item ∧
      Observer.Inventory first (maxObservedDepth + 1) path item all ∧
      all.length ≤ maxObservedNodes ∧ (all.map (heldBytes item)).sum ≤ maxObservedBytes) ∧
    (state.fullyObserved = true -> twinState.fullyObserved = true -> state = twinState ->
      ∃ item twin, first.tree.walk (segmentNames path.value) = .ok item ∧
        second.tree.walk (segmentNames other.value) = .ok twin ∧
        (Collision sha256 item twin ∨
          forall names, (item.lookup names).map sight = (twin.lookup names).map sight)) := by
  rcases hashes with ⟨rfl, same⟩
  constructor
  · intro full
    rcases Observer.capture_ok one full with ⟨_, item, all, found⟩
    exact ⟨item, all, found.walked, found.inventory, found.within⟩
  · rintro full twinFull rfl
    rcases Observer.capture_ok one full with ⟨_, item, _, found⟩
    rcases Observer.capture_ok two twinFull with ⟨_, twin, _, twinFound⟩
    exact ⟨item, twin, found.walked, twinFound.walked, found.sight_eq hex same twinFound⟩

open OneMove in
theorem observed_states_tell_trees_moved :
    directoryState.fullyObserved = true ∧
      ∃ item twin, before.tree.walk (segmentNames "a".toList) = .ok item ∧
        moved.tree.walk (segmentNames "d".toList) = .ok twin ∧
        (Collision hexText item twin ∨
          forall names, (item.lookup names).map sight = (twin.lookup names).map sight) := by
  have told := observed_states_tell_trees hexText hexText_digits before moved ⟨rfl, rfl⟩
    ⟨"a".toList⟩ ⟨"d".toList⟩ directoryState directoryState rfl rfl
  exact ⟨rfl, told.2 rfl rfl rfl⟩

end TealDrive
