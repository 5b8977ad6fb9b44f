import TealDrive.Policy.Path

namespace TealDrive

/-!
# The canonical form of relative paths

`validate_relative_path` gives every text that it accepts one spelling: the
names of the text with single separators between them.  Joined to a base the
result stays below the base.  The browser's `path` accepts only texts that
are spelled so already, apart from one leading separator, which it removes.
-/

/-- `Path::join`. -/
def joinPath (base path : Text) : Text :=
  if isAbsolute path then path
  else if base = [] ∨ base.getLast? = some '/' then base ++ path
  else base ++ '/' :: path

/-- The name of an ordinary component. -/
def Component.ordinary : Component -> Option Text
  | .normal name => some name
  | _ => none

/-- The components of a path that are names. -/
def ordinaryComponents (path : Text) : List Text :=
  (components path).filterMap Component.ordinary

/-! ## `path` of the SDK -/

/-- `String.length`, in UTF-16 code units. -/
def utf16Length (text : Text) : Nat :=
  (text.map (fun symbol => if symbol.toNat < 0x10000 then 1 else 2)).sum

/-- The characters of the pattern that `path` refuses. -/
def sdkForbidden (symbol : Char) : Bool :=
  symbol == '\\' || decide (symbol.toNat ≤ 0x1f) || decide (symbol.toNat = 0x7f)

def sdkPath (value : Text) : Option Text :=
  if decide (utf16Length value > 4096) || value.any sdkForbidden then none
  else
    let result := if value.head? = some '/' then value.drop 1 else value
    if (result.splitOn '/').any (fun part => part == "..".toList || part == ".".toList ||
        (part == [] && result != [])) then none
    else some result

/-! ## The names of a path -/

theorem ordinaryComponents_eq (path : Text) :
    ordinaryComponents path = (segmentNames path).filter (fun name => name != "..".toList) := by
  have names : forall segments : List Text,
      (segments.map Component.ofSegment).filterMap Component.ordinary =
        segments.filter (fun name => name != "..".toList) := by
    intro segments
    induction segments with
    | nil => rfl
    | cons first rest ih =>
        rw [List.map_cons]
        by_cases parent : first = "..".toList
        · have skipped : (Component.ofSegment first).ordinary = none := by
            unfold Component.ofSegment
            rw [if_pos parent]
            rfl
          rw [List.filterMap_cons_none skipped, ih, List.filter_cons_of_neg]
          simp [parent]
        · have kept : (Component.ofSegment first).ordinary = some first := by
            unfold Component.ofSegment
            rw [if_neg parent]
            rfl
          rw [List.filterMap_cons_some kept, ih, List.filter_cons_of_pos]
          exact bne_iff_ne.mpr parent
  unfold ordinaryComponents components
  rw [List.filterMap_append, names]
  rcases leadingComponents_cases path with root | current | nothing
  · rw [root]
    rfl
  · rw [current]
    rfl
  · rw [nothing]
    rfl

/-- No name of a text is `..` exactly when no part of it is. -/
theorem parent_mem_names (text : Text) :
    "..".toList ∈ segmentNames text ↔ "..".toList ∈ text.splitOn '/' := by
  unfold segmentNames Segments.names
  rw [List.mem_filter]
  constructor
  · intro member
    exact member.1
  · intro member
    exact ⟨member, rfl⟩

theorem validPath_iff (path : RelativePath) :
    ValidPath path ↔ '\x00' ∉ path.value ∧ path.value.head? ≠ some '/' ∧
      "..".toList ∉ path.value.splitOn '/' := by
  have absolute : isAbsolute path.value = false ↔ path.value.head? ≠ some '/' := by
    unfold isAbsolute
    exact beq_eq_false_iff_ne
  constructor
  · intro valid
    exact ⟨valid.noNull, absolute.mp valid.relative,
      fun member => valid.noParent ((parent_mem_names _).mpr member)⟩
  · rintro ⟨noNull, relative, noParent⟩
    exact ⟨noNull, absolute.mpr relative, fun member => noParent ((parent_mem_names _).mp member)⟩

/-! ## The canonical spelling -/

/-- The parts of a canonical text are the names it spells. -/
theorem splitOn_canonicalText {path : RelativePath} (nonempty : (canonicalText path).value ≠ []) :
    (canonicalText path).value.splitOn '/' = segmentNames path.value := by
  have named : segmentNames path.value ≠ [] := by
    intro none
    apply nonempty
    change Segments.join '/' (segmentNames path.value) = []
    rw [none]
    rfl
  change (Segments.join '/' (segmentNames path.value)).splitOn '/' = _
  exact Segments.splitOn_join named
    (fun _ member => Segments.separator_not_mem_of_mem_names member)

/-- A text that ends in a separator ends in an empty part. -/
theorem empty_mem_splitOn_of_getLast {text : Text} (ends : text.getLast? = some '/') :
    [] ∈ text.splitOn '/' := by
  rcases List.getLast?_eq_some_iff.mp ends with ⟨front, same⟩
  rw [same, List.splitOn_append_cons_self]
  exact List.mem_append_right _ List.mem_cons_self

theorem canonicalText_parts {path : RelativePath} (valid : ValidPath path)
    (nonempty : (canonicalText path).value ≠ []) {part : Text}
    (member : part ∈ (canonicalText path).value.splitOn '/') :
    part ≠ [] ∧ part ≠ ".".toList ∧ part ≠ "..".toList := by
  rw [splitOn_canonicalText nonempty] at member
  have named := Segments.not_dull_of_mem_names member
  unfold dullSegment at named
  rw [Bool.or_eq_false_iff, beq_eq_false_iff_ne, beq_eq_false_iff_ne] at named
  refine ⟨named.1, named.2, ?_⟩
  intro parent
  exact valid.noParent (parent ▸ member)

theorem canonicalText_ends {path : RelativePath} (valid : ValidPath path) :
    (canonicalText path).value.getLast? ≠ some '/' := by
  intro ends
  have nonempty : (canonicalText path).value ≠ [] := by
    intro none
    rw [none] at ends
    cases ends
  exact (canonicalText_parts valid nonempty (empty_mem_splitOn_of_getLast ends)).1 rfl

/-! ## Below a base -/

theorem segmentNames_join {base path : Text} (relative : isAbsolute path = false) :
    segmentNames (joinPath base path) = segmentNames base ++ segmentNames path := by
  unfold joinPath
  rw [relative, if_neg Bool.false_ne_true]
  by_cases ends : base = [] ∨ base.getLast? = some '/'
  · rw [if_pos ends]
    rcases ends with none | last
    · rw [none]
      rfl
    · rcases List.getLast?_eq_some_iff.mp last with ⟨front, same⟩
      have spelled : base ++ path = front ++ '/' :: path := by
        rw [same, List.append_assoc]
        rfl
      unfold segmentNames
      rw [spelled, Segments.names_append, same, Segments.names_concat_separator dullSegment_nil]
  · rw [if_neg ends]
    exact Segments.names_append base path

theorem isAbsolute_join {base path : Text} (absolute : isAbsolute base = true) :
    isAbsolute (joinPath base path) = true := by
  unfold joinPath
  by_cases rooted : isAbsolute path = true
  · rw [if_pos rooted]
    exact rooted
  · have start : forall rest : Text, isAbsolute (base ++ rest) = true := by
      intro rest
      cases base with
      | nil => cases absolute
      | cons first others => exact absolute
    rw [if_neg rooted]
    split
    · exact start path
    · exact start ('/' :: path)

/-- What is joined to an absolute base is the base or lies below it. -/
theorem components_join {base path : Text} (absolute : isAbsolute base = true)
    (relative : isAbsolute path = false) (noParent : "..".toList ∉ segmentNames path) :
    components (joinPath base path) =
      components base ++ (segmentNames path).map Component.normal := by
  have leading : forall text : Text, isAbsolute text = true -> leadingComponents text = [.rootDir] := by
    intro text rooted
    unfold leadingComponents
    exact if_pos rooted
  have ordinary : (segmentNames path).map Component.ofSegment =
      (segmentNames path).map Component.normal := by
    apply List.map_congr_left
    intro name member
    unfold Component.ofSegment
    rw [if_neg]
    intro parent
    exact noParent (parent ▸ member)
  unfold components
  rw [leading _ (isAbsolute_join absolute), leading _ absolute, segmentNames_join relative,
    List.map_append, ordinary, List.append_assoc]

/-! ## What the SDK sends -/

/-- A text whose parts are all names is its own canonical spelling. -/
theorem canonicalText_of_parts {text : Text}
    (named : forall part, part ∈ text.splitOn '/' -> dullSegment part = false) :
    canonicalText ⟨text⟩ = ⟨text⟩ := by
  have whole : segmentNames text = text.splitOn '/' := by
    unfold segmentNames Segments.names
    apply List.filter_eq_self.mpr
    intro part member
    rw [named part member]
    rfl
  change RelativePath.mk (Segments.join '/' (segmentNames text)) = ⟨text⟩
  rw [whole]
  exact congrArg RelativePath.mk (List.intercalate_splitOn '/')

theorem sdkPath_validated {value result : Text} (accepted : sdkPath value = some result) :
    validateRelativePath ⟨result⟩ = .ok ⟨result⟩ := by
  unfold sdkPath at accepted
  split at accepted
  · cases accepted
  · next allowed =>
      simp only at accepted
      generalize text : (if value.head? = some '/' then value.drop 1 else value) = kept at accepted
      split at accepted
      · cases accepted
      · next clean =>
          cases accepted
          have inside : forall symbol, symbol ∈ result -> symbol ∈ value := by
            intro symbol member
            rw [← text] at member
            split at member
            · exact List.mem_of_mem_drop member
            · exact member
          have noNull : '\x00' ∉ result := by
            intro member
            apply allowed
            rw [Bool.or_eq_true]
            exact Or.inr (List.any_eq_true.mpr ⟨'\x00', inside _ member, by decide⟩)
          have parts : forall part, part ∈ result.splitOn '/' ->
              part ≠ "..".toList ∧ part ≠ ".".toList ∧ (part = [] -> result = []) := by
            intro part member
            have fine : (part == "..".toList || part == ".".toList ||
                (part == [] && result != [])) = false := by
              rw [← Bool.not_eq_true]
              intro refused
              exact clean (List.any_eq_true.mpr ⟨part, member, refused⟩)
            rw [Bool.or_eq_false_iff, Bool.or_eq_false_iff, beq_eq_false_iff_ne,
              beq_eq_false_iff_ne] at fine
            refine ⟨fine.1.1, fine.1.2, ?_⟩
            intro none
            rw [none] at fine
            simpa using fine.2
          cases result with
          | nil => rfl
          | cons first others =>
              have named : forall part, part ∈ (first :: others).splitOn '/' ->
                  dullSegment part = false := by
                intro part member
                have fine := parts part member
                unfold dullSegment
                rw [Bool.or_eq_false_iff, beq_eq_false_iff_ne, beq_eq_false_iff_ne]
                exact ⟨fun none => List.cons_ne_nil _ _ (fine.2.2 none), fine.2.1⟩
              have relative : (first :: others).head? ≠ some '/' := by
                intro start
                cases start
                have empty : [] ∈ ('/' :: others).splitOn '/' := by
                  have split : ([] ++ '/' :: others).splitOn '/' =
                      [].splitOn '/' ++ others.splitOn '/' := List.splitOn_append_cons_self [] others
                  rw [List.nil_append] at split
                  rw [split]
                  exact List.mem_append_left _ List.mem_cons_self
                exact List.cons_ne_nil _ _ ((parts [] empty).2.2 rfl)
              have valid : ValidPath ⟨first :: others⟩ := (validPath_iff _).mpr
                ⟨noNull, relative, fun member => (parts _ member).1 rfl⟩
              rw [valid.validate, canonicalText_of_parts named]

/-- What the SDK sends is the text without a separator at its start. -/
theorem sdkPath_spelling {value result : Text} (accepted : sdkPath value = some result) :
    value = result ∨ value = '/' :: result := by
  unfold sdkPath at accepted
  split at accepted
  · cases accepted
  · simp only at accepted
    generalize text : (if value.head? = some '/' then value.drop 1 else value) = kept at accepted
    split at accepted
    · cases accepted
    · cases accepted
      split at text
      · next start =>
          right
          rcases List.head?_eq_some_iff.mp start with ⟨rest, rfl⟩
          rw [← text]
          rfl
      · exact Or.inl text

theorem sdkPath_ordinaryComponents {value result : Text} (accepted : sdkPath value = some result) :
    ordinaryComponents result = ordinaryComponents value := by
  rcases sdkPath_spelling accepted with rfl | rfl
  · rfl
  · rw [ordinaryComponents_eq, ordinaryComponents_eq]
    unfold segmentNames
    rw [Segments.names_cons_separator dullSegment_nil]

/-- Every accepted path has one canonical spelling, which stays below every
base, and the SDK sends the accepted text in such a spelling. -/
theorem relative_path_canonical :
    (forall path, (∃ valid, validateRelativePath path = .ok valid) ↔
      '\x00' ∉ path.value ∧ path.value.head? ≠ some '/' ∧
        "..".toList ∉ path.value.splitOn '/') ∧
    (forall path valid, validateRelativePath path = .ok valid ->
      (valid.value ≠ [] -> forall part, part ∈ valid.value.splitOn '/' ->
        part ≠ [] ∧ part ≠ ".".toList ∧ part ≠ "..".toList) ∧
      valid.value.head? ≠ some '/' ∧ valid.value.getLast? ≠ some '/' ∧
      ordinaryComponents valid.value = ordinaryComponents path.value ∧
      validateRelativePath valid = .ok valid ∧
      forall base, isAbsolute base = true -> ∃ below : List Text,
        components (joinPath base valid.value) =
          components base ++ below.map Component.normal) ∧
    (forall value result, sdkPath value = some result ->
      (value = result ∨ value = '/' :: result) ∧
      ordinaryComponents result = ordinaryComponents value ∧
      validateRelativePath ⟨result⟩ = .ok ⟨result⟩) := by
  refine ⟨?_, ?_, fun _ _ accepted => ⟨sdkPath_spelling accepted,
    sdkPath_ordinaryComponents accepted, sdkPath_validated accepted⟩⟩
  · intro path
    rw [← validPath_iff]
    constructor
    · rintro ⟨valid, accepted⟩
      exact validPath_of_ok accepted
    · intro valid
      exact ⟨_, valid.validate⟩
  · intro path valid accepted
    have again := validateRelativePath_idempotent accepted
    rcases validateRelativePath_eq_ok_iff.mp accepted with ⟨fine, same⟩
    subst same
    have canonical := fine.canonicalText
    refine ⟨fun nonempty part member => canonicalText_parts fine nonempty member, ?_,
      canonicalText_ends fine, ?_, again, ?_⟩
    · exact ((validPath_iff _).mp canonical).2.1
    · rw [ordinaryComponents_eq, ordinaryComponents_eq, segmentNames_canonicalText]
    · intro base absolute
      exact ⟨_, components_join absolute canonical.relative canonical.noParent⟩

end TealDrive
