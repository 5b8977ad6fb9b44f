import Mathlib.Algebra.GroupWithZero.Nat
import Mathlib.Data.Char
import Mathlib.Data.List.Lex
import TealDrive.Library.Segments

namespace TealDrive

/-!
# Texts and path components

A Rust `String` is the list of its Unicode scalar values.  Lengths are byte
lengths of the UTF-8 encoding, since that is what `str::len` returns.  Paths
are read by the rules `std::path::Path` has on Unix: repeated separators and
inner `.` components are skipped, a leading `.` is a `CurDir`, and a leading
`/` is a `RootDir`.
-/

/-- A Rust string, as its sequence of Unicode scalar values. -/
abbrev Text := List Char

namespace Text

/-- `str::len`: the number of bytes of the UTF-8 encoding. -/
def len (text : Text) : Nat :=
  (text.map (fun symbol => symbol.utf8Size)).sum

/-- A condition on every symbol of a given text is decided symbol by symbol. -/
theorem forall_mem {text : Text} {holds : Char -> Prop} [DecidablePred holds]
    (all : text.all (fun symbol => decide (holds symbol)) = true) :
    forall symbol, symbol ∈ text -> holds symbol :=
  fun symbol member => of_decide_eq_true (List.all_eq_true.mp all symbol member)

/-- `str::to_ascii_lowercase`. -/
def toAsciiLowercase (text : Text) : Text :=
  text.map (fun symbol => symbol.toLower)

/-- `str::strip_prefix`. -/
def stripPrefix (start text : Text) : Option Text :=
  if start.isPrefixOf text then some (text.drop start.length) else none

/-- `str::strip_suffix`. -/
def stripSuffix (ending text : Text) : Option Text :=
  if ending.isSuffixOf text then some (text.take (text.length - ending.length)) else none

/-- `str::contains` for a text. -/
def containsStr (text part : Text) : Bool :=
  text.tails.any (fun rest => part.isPrefixOf rest)

/-- `chars().any(char::is_control)`: the control characters are the two blocks
below U+0020 and from U+007F to U+009F. -/
def hasControl (text : Text) : Bool :=
  text.any (fun symbol => decide (symbol.toNat < 32) ||
    (decide (127 ≤ symbol.toNat) && decide (symbol.toNat ≤ 159)))

end Text

/-! ## Path components -/

/-- A segment between separators that `Path::components` never yields. -/
def dullSegment (segment : Text) : Bool :=
  segment == [] || segment == ".".toList

theorem dullSegment_nil : dullSegment [] = true := rfl

inductive Component where
  | rootDir
  | curDir
  | parentDir
  | normal (name : Text)
deriving DecidableEq

/-- The component a named segment stands for. -/
def Component.ofSegment (segment : Text) : Component :=
  if segment = "..".toList then .parentDir else .normal segment

/-- The names a path spells, `..` included. -/
def segmentNames (path : Text) : List Text :=
  Segments.names '/' dullSegment path

/-- `Path::is_absolute` on Unix. -/
def isAbsolute (path : Text) : Bool :=
  path.head? == some '/'

/-- What a path starts with besides its names. -/
def leadingComponents (path : Text) : List Component :=
  if isAbsolute path then [.rootDir]
  else if (path.splitOn '/').head? == some ".".toList then [.curDir]
  else []

/-- `Path::components` on Unix. -/
def components (path : Text) : List Component :=
  leadingComponents path ++ (segmentNames path).map Component.ofSegment

/-- `Path::eq` compares components, not texts. -/
def samePath (left right : Text) : Bool :=
  components left == components right

/-- `Path::file_name`: the last component when it is an ordinary name. -/
def fileName (path : Text) : Option Text :=
  match (components path).getLast? with
  | some (.normal name) => some name
  | _ => none

/-- Whether some component of a path is `..`. -/
def hasParentDir (path : Text) : Bool :=
  (components path).contains .parentDir

theorem samePath_iff {left right : Text} :
    samePath left right = true ↔ components left = components right := by
  unfold samePath
  exact beq_iff_eq

theorem leadingComponents_cases (path : Text) :
    leadingComponents path = [.rootDir] ∨ leadingComponents path = [.curDir] ∨
      leadingComponents path = [] := by
  unfold leadingComponents
  by_cases absolute : isAbsolute path = true
  · exact Or.inl (if_pos absolute)
  · rw [if_neg absolute]
    by_cases leading : ((path.splitOn '/').head? == some ".".toList) = true
    · exact Or.inr (Or.inl (if_pos leading))
    · exact Or.inr (Or.inr (if_neg leading))

/-- The file name of a path is the last of the names it spells.  A path that
spells none is the root, the current directory or empty. -/
theorem fileName_eq (path : Text) :
    fileName path =
      match (segmentNames path).getLast? with
      | some segment => if segment = "..".toList then none else some segment
      | none => none := by
  unfold fileName components
  cases final : (segmentNames path).getLast? with
  | none =>
      rw [List.getLast?_eq_none_iff.mp final, List.map_nil, List.append_nil]
      rcases leadingComponents_cases path with root | current | nothing
      · rw [root]; rfl
      · rw [current]; rfl
      · rw [nothing]; rfl
  | some segment =>
      rw [List.getLast?_append, List.getLast?_map, final]
      simp only [Option.map_some, Option.some_or, Component.ofSegment]
      by_cases parent : segment = "..".toList
      · rw [if_pos parent, if_pos parent]
      · rw [if_neg parent, if_neg parent]

end TealDrive
