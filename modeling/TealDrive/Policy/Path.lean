import TealDrive.Library.Outcome
import TealDrive.Text

namespace TealDrive

open Outcome

/-!
# Relative paths and file names

`validate_relative_path` is the one function that turns the text of a request
into the path the handlers open.  Its result is the canonical spelling: the
names of the text, joined by single separators.  Everything in the policy that
normalizes first agrees on a text and on its canonical spelling.
-/

inductive TealDriveError where
  | revisionConflict
  | validation
  | permissionDenied
  | policyDenied
  | notFound
  | invalidRootId
  | absolutePathRejected
  | traversalRejected
  | nullByteRejected
  | invalidFilename
  | invalidPath
  | fileTooLarge
  | reservedNameRejected
  | pathEscapesRoot
  | symlinkDenied
  | symlinkEscape
  | alreadyExists
  | invalidTarget
  | diskFull
  | payloadTooLarge
  | webrootExecutableDenied
  | helperCommandNotImplemented
  | helperMalformedResponse
  | internal
  | invalidHeaderLength
  | invalidMagic
  | unsupportedVersion
  | invalidFlags
  | unknownMessageType
  | invalidCompression
  | invalidEncoding
  | reservedFieldNonZero
  | payloadLengthMismatch
  | invalidChunk
deriving DecidableEq

structure RootId where
  value : Text
deriving DecidableEq

structure RelativePath where
  value : Text
deriving DecidableEq

/-! ## `fs::path` -/

/-- The loop of `validate_relative_path` over the components of the trimmed
text.  A `RootDir` cannot occur after trimming; the source rejects it anyway. -/
def collectParts : List Component -> Except TealDriveError (List Text)
  | [] => .ok []
  | .normal part :: rest => do
      let parts ← collectParts rest
      return part :: parts
  | .curDir :: rest => collectParts rest
  | .parentDir :: _ => .error .traversalRejected
  | .rootDir :: _ => .error .absolutePathRejected

def validateRelativePath (path : RelativePath) : Except TealDriveError RelativePath := do
  let value := Segments.trimMatches '/' path.value
  refuse (path.value.contains '\x00') .nullByteRejected
  refuse (isAbsolute path.value) .absolutePathRejected
  let parts ← collectParts (components value)
  return ⟨Segments.join '/' parts⟩

def isHiddenRelative (path : RelativePath) : Bool :=
  match validateRelativePath path with
  | .ok valid => (valid.value.splitOn '/').any (fun part => part.head? == some '.')
  | .error _ => false

/-- The canonical spelling of the names of a path. -/
def canonicalText (path : RelativePath) : RelativePath :=
  ⟨Segments.normalize '/' dullSegment path.value⟩

/-- A text `validate_relative_path` accepts. -/
structure ValidPath (path : RelativePath) : Prop where
  noNull : '\x00' ∉ path.value
  relative : isAbsolute path.value = false
  noParent : "..".toList ∉ segmentNames path.value

theorem collectParts_map_ofSegment (segments : List Text) :
    collectParts (segments.map Component.ofSegment) =
      if "..".toList ∈ segments then .error .traversalRejected else .ok segments := by
  induction segments with
  | nil => rfl
  | cons segment rest ih =>
      by_cases parent : segment = "..".toList
      · subst parent
        rw [if_pos List.mem_cons_self]
        rfl
      · have component : Component.ofSegment segment = .normal segment := if_neg parent
        rw [List.map_cons, component]
        simp only [collectParts, ih]
        by_cases later : "..".toList ∈ rest
        · rw [if_pos later, if_pos (List.mem_cons_of_mem segment later)]
          rfl
        · rw [if_neg later, if_neg]
          · rfl
          · intro member
            rcases List.mem_cons.mp member with here | there
            · exact parent here.symm
            · exact later there

theorem isAbsolute_trimMatches (text : Text) :
    isAbsolute (Segments.trimMatches '/' text) = false := by
  have dropped : forall text : Text,
      (text.dropWhile (fun head => head == '/')).head? ≠ some '/' := by
    intro text
    induction text with
    | nil => intro impossible; cases impossible
    | cons symbol rest ih =>
        by_cases same : symbol = '/'
        · rw [List.dropWhile_cons_of_pos (by simpa using same)]
          exact ih
        · rw [List.dropWhile_cons_of_neg (by simpa using same)]
          intro equal
          exact same (Option.some.inj equal)
  unfold isAbsolute Segments.trimMatches
  have start := dropped text
  generalize (text.dropWhile (fun head => head == '/')) = body at start
  have shorter := List.rdropWhile_prefix (fun last => last == '/') (l := body)
  rcases shorter with ⟨tail, whole⟩
  cases kept : body.rdropWhile (fun last => last == '/') with
  | nil => rfl
  | cons first others =>
      rw [kept] at whole
      rw [← whole] at start
      simpa using start

/-- What `validate_relative_path` computes, in terms of the names of a text. -/
theorem validateRelativePath_eq_ok_iff {path valid : RelativePath} :
    validateRelativePath path = .ok valid ↔ ValidPath path ∧ valid = canonicalText path := by
  have trimmed : segmentNames (Segments.trimMatches '/' path.value) = segmentNames path.value :=
    Segments.names_trimMatches dullSegment_nil path.value
  have parts : collectParts (components (Segments.trimMatches '/' path.value)) =
      if "..".toList ∈ segmentNames path.value then .error .traversalRejected
      else .ok (segmentNames path.value) := by
    rw [← trimmed, ← collectParts_map_ofSegment]
    unfold components
    rcases leadingComponents_cases (Segments.trimMatches '/' path.value) with
      root | current | nothing
    · unfold leadingComponents at root
      rw [isAbsolute_trimMatches] at root
      simp only [Bool.false_eq_true, if_false] at root
      split at root <;> cases root
    · rw [current]; rfl
    · rw [nothing]; rfl
  unfold validateRelativePath
  simp only [bind_eq_ok, refuse_eq_ok, pure_eq_ok, parts, List.contains_eq_mem,
    decide_eq_false_iff_not]
  constructor
  · rintro ⟨_, noNull, _, relative, names, collected, same⟩
    by_cases parent : "..".toList ∈ segmentNames path.value
    · rw [if_pos parent] at collected
      cases collected
    · rw [if_neg parent] at collected
      cases collected
      exact ⟨⟨noNull, relative, parent⟩, same.symm⟩
  · rintro ⟨accepted, same⟩
    rw [if_neg accepted.noParent]
    exact ⟨⟨⟩, accepted.noNull, ⟨⟩, accepted.relative, _, rfl, same.symm⟩

/-! ## Canonical spellings -/

theorem segmentNames_canonicalText (path : RelativePath) :
    segmentNames (canonicalText path).value = segmentNames path.value :=
  Segments.names_normalize dullSegment_nil path.value

theorem canonicalText_canonicalText (path : RelativePath) :
    canonicalText (canonicalText path) = canonicalText path :=
  congrArg RelativePath.mk (Segments.normalize_normalize dullSegment_nil path.value)

theorem fileName_canonicalText (path : RelativePath) :
    fileName (canonicalText path).value = fileName path.value := by
  rw [fileName_eq, fileName_eq, segmentNames_canonicalText]

/-- The canonical spelling starts with a name, never with a separator. -/
theorem isAbsolute_canonicalText (path : RelativePath) :
    isAbsolute (canonicalText path).value = false := by
  change isAbsolute (Segments.join '/' (segmentNames path.value)) = false
  cases segments : segmentNames path.value with
  | nil => rfl
  | cons first others =>
      have member : first ∈ Segments.names '/' dullSegment path.value :=
        show first ∈ segmentNames path.value from segments ▸ List.mem_cons_self
      have clean := Segments.separator_not_mem_of_mem_names member
      have named := Segments.not_dull_of_mem_names member
      cases first with
      | nil => cases named
      | cons symbol rest =>
          have different : symbol ≠ '/' := fun same => clean (same ▸ List.mem_cons_self)
          have start : (Segments.join '/' ((symbol :: rest) :: others)).head? = some symbol := by
            cases others <;> simp [Segments.join, List.intercalate]
          unfold isAbsolute
          rw [start]
          simpa using different

theorem ValidPath.canonicalText {path : RelativePath} (valid : ValidPath path) :
    ValidPath (canonicalText path) where
  noNull := by
    intro member
    rcases Segments.mem_join member with separator | ⟨segment, present, inside⟩
    · exact absurd separator (by decide)
    · exact valid.noNull (Segments.mem_of_mem_names present inside)
  relative := isAbsolute_canonicalText path
  noParent := by
    rw [segmentNames_canonicalText]
    exact valid.noParent

theorem validPath_of_ok {path valid : RelativePath}
    (accepted : validateRelativePath path = .ok valid) : ValidPath path :=
  (validateRelativePath_eq_ok_iff.mp accepted).1

theorem ValidPath.validate {path : RelativePath} (valid : ValidPath path) :
    validateRelativePath path = .ok (TealDrive.canonicalText path) :=
  validateRelativePath_eq_ok_iff.mpr ⟨valid, rfl⟩

/-- Validation is idempotent: the result is its own canonical spelling. -/
theorem validateRelativePath_idempotent {path valid : RelativePath}
    (accepted : validateRelativePath path = .ok valid) :
    validateRelativePath valid = .ok valid := by
  rcases validateRelativePath_eq_ok_iff.mp accepted with ⟨original, same⟩
  subst same
  exact validateRelativePath_eq_ok_iff.mpr
    ⟨original.canonicalText, (canonicalText_canonicalText path).symm⟩

/-- Hiddenness is read from the canonical spelling. -/
theorem isHiddenRelative_canonical {path valid : RelativePath}
    (accepted : validateRelativePath path = .ok valid) :
    isHiddenRelative valid = isHiddenRelative path := by
  unfold isHiddenRelative
  rw [accepted, validateRelativePath_idempotent accepted]

end TealDrive
