import TealDrive.Policy.Spelling

namespace TealDrive

open Outcome

/-!
# The decision of the path policy

`check` walks over texts and lists: it splits the path, compares rule texts
with it and leaves the loop early.  What it decides does not depend on any of
this.  For a policy that passed validation the decision is a statement about
names: which directories lie above the path, and whether a denied component or
the rule of such a directory applies.

The verdict reads the rules as a set, so it depends neither on their order nor
on the layer that holds them, and adding the rules of a ceiling is the
conjunction of the two verdicts.
-/

namespace AccessPolicy

/-! ## The verdict of a set of rules -/

/-- The rule makes the path look missing. -/
def hides (root : RootId) (path : RelativePath) (rule : Rule) : Bool :=
  !rule.rootId.any (fun id => id != root) &&
    ((path == rule.path || descendant rule path) && rule.deny.contains .discover)

/-- The rule denies the action on the path. -/
def forbids (root : RootId) (path : RelativePath) (action : Access) (rule : Rule) : Bool :=
  !rule.rootId.any (fun id => id != root) &&
    ((path == rule.path || (rule.recursive && descendant rule path)) && rule.deny.contains action)

/-- Hiding goes before denying. -/
def verdict (hidden denied : Bool) : Except TealDriveError Unit :=
  if hidden then .error .notFound else if denied then .error .policyDenied else .ok ()

theorem verdict_eq_ok {hidden denied : Bool} :
    verdict hidden denied = .ok () ↔ hidden = false ∧ denied = false := by
  cases hidden <;> cases denied <;> simp [verdict]

theorem verdict_eq_notFound {hidden denied : Bool} :
    verdict hidden denied = .error .notFound ↔ hidden = true := by
  cases hidden <;> cases denied <;> simp [verdict]

theorem verdict_eq_policyDenied {hidden denied : Bool} :
    verdict hidden denied = .error .policyDenied ↔ hidden = false ∧ denied = true := by
  cases hidden <;> cases denied <;> simp [verdict]

theorem checkRules_eq_verdict (root : RootId) (path : RelativePath) (action : Access)
    (rules : List Rule) (denied : Bool) :
    checkRules root path action rules denied =
      verdict (rules.any (hides root path)) (denied || rules.any (forbids root path action)) := by
  induction rules generalizing denied with
  | nil => cases denied <;> rfl
  | cons rule rest ih =>
      simp only [checkRules, List.any_cons, hides, forbids]
      cases other : rule.rootId.any (fun id => id != root) with
      | true =>
          simp only [if_true, Bool.not_true, Bool.false_and, Bool.false_or]
          exact ih denied
      | false =>
          cases hidden : ((path == rule.path || descendant rule path) &&
              rule.deny.contains .discover) with
          | true => rfl
          | false =>
              simp only [Bool.false_eq_true, if_false, Bool.not_false, Bool.true_and,
                Bool.false_or, ← Bool.or_assoc]
              exact ih _

/-- Some component of the path, or some rule for the user, hides it. -/
def hidden (policy : AccessPolicy) (username : Text) (root : RootId) (path : RelativePath) : Bool :=
  (path.value.splitOn '/').any policy.deniesComponent ||
    (policy.rulesFor username).any (hides root path)

/-- Some rule for the user denies the action on the path. -/
def denied (policy : AccessPolicy) (username : Text) (root : RootId) (path : RelativePath)
    (action : Access) : Bool :=
  (policy.rulesFor username).any (forbids root path action)

theorem check_eq_verdict {policy : AccessPolicy} {username : Text} {root : RootId}
    {path valid : RelativePath} {action : Access}
    (accepted : validateRelativePath path = .ok valid) :
    policy.check username root path action =
      verdict (policy.hidden username root valid) (policy.denied username root valid action) := by
  unfold check
  rw [accepted]
  change (refuse ((valid.value.splitOn '/').any policy.deniesComponent) TealDriveError.notFound >>=
    fun _ => checkRules root valid action (policy.rulesFor username) false) = _
  rw [checkRules_eq_verdict, Bool.false_or]
  unfold hidden denied
  cases (valid.value.splitOn '/').any policy.deniesComponent <;> rfl

theorem check_of_invalid {policy : AccessPolicy} {username : Text} {root : RootId}
    {path : RelativePath} {action : Access} {error : TealDriveError}
    (rejected : validateRelativePath path = .error error) :
    policy.check username root path action = .error error := by
  unfold check
  rw [rejected]
  rfl

/-! ## The same denials, the same decisions -/

/-- Both policies deny the same components, and the same rules concern the user. -/
structure SameDenials (first second : AccessPolicy) (username : Text) : Prop where
  components : forall name,
    name ∈ first.denySystemComponents ↔ name ∈ second.denySystemComponents
  rules : forall rule, rule ∈ first.rulesFor username ↔ rule ∈ second.rulesFor username

theorem any_congr_mem {Element : Type} {first second : List Element} {condition : Element -> Bool}
    (same : forall element, element ∈ first ↔ element ∈ second) :
    first.any condition = second.any condition := by
  apply Bool.eq_iff_iff.mpr
  simp only [List.any_eq_true]
  constructor
  · rintro ⟨element, member, holds⟩
    exact ⟨element, (same element).mp member, holds⟩
  · rintro ⟨element, member, holds⟩
    exact ⟨element, (same element).mpr member, holds⟩

theorem SameDenials.check {first second : AccessPolicy} {username : Text}
    (same : SameDenials first second username) {root : RootId} {path : RelativePath}
    {action : Access} :
    first.check username root path action = second.check username root path action := by
  have components : first.deniesComponent = second.deniesComponent := by
    funext component
    have listed : first.denySystemComponents.contains component =
        second.denySystemComponents.contains component := by
      apply Bool.eq_iff_iff.mpr
      rw [List.contains_iff_mem, List.contains_iff_mem]
      exact same.components component
    unfold deniesComponent
    rw [listed]
  cases accepted : validateRelativePath path with
  | error error => rw [check_of_invalid accepted, check_of_invalid accepted]
  | ok valid =>
      rw [check_eq_verdict accepted, check_eq_verdict accepted]
      unfold hidden denied
      rw [components, any_congr_mem same.rules, any_congr_mem same.rules]

/-! ## Reading the decision from names -/

/-- The rule concerns the root. -/
def Concerns (rule : Rule) (root : RootId) : Prop :=
  rule.rootId = none ∨ rule.rootId = some root

/-- A component nobody may name. -/
def Reserved (policy : AccessPolicy) (component : Text) : Prop :=
  component ∈ policy.denySystemComponents ∨ component = ".tealdrive-trash".toList ∨
    ".tdrv-transaction-".toList <+: component

/-- The path, or a directory above it, must look missing. -/
def Hidden (policy : AccessPolicy) (username : Text) (root : RootId) (names : List Text) : Prop :=
  (∃ component, component ∈ names ∧ policy.Reserved component) ∨
    ∃ rule, rule ∈ policy.rulesFor username ∧ Concerns rule root ∧ .discover ∈ rule.deny ∧
      segmentNames rule.path.value <+: names

/-- The action is denied at the path itself, or for everything below a
directory above it. -/
def Denied (policy : AccessPolicy) (username : Text) (root : RootId) (names : List Text)
    (action : Access) : Prop :=
  ∃ rule, rule ∈ policy.rulesFor username ∧ Concerns rule root ∧ action ∈ rule.deny ∧
    (segmentNames rule.path.value = names ∨
      (rule.recursive = true ∧ segmentNames rule.path.value <+: names ∧
        segmentNames rule.path.value ≠ names))

theorem concerns_iff {rule : Rule} {root : RootId} :
    rule.rootId.any (fun id => id != root) = false ↔ Concerns rule root := by
  unfold Concerns
  cases rule.rootId with
  | none => simp
  | some id => simp

/-- What validation establishes about a single rule. -/
theorem validateRules_path {count : Nat} {rules : List Rule}
    (accepted : validateRules count rules = .ok ()) :
    forall rule, rule ∈ rules -> validateRelativePath rule.path = .ok rule.path := by
  induction rules generalizing count with
  | nil => exact fun rule member => absurd member List.not_mem_nil
  | cons first rest ih =>
      simp only [validateRules, bind_eq_ok, refuse_eq_ok, Bool.or_eq_false_iff] at accepted
      rcases accepted with ⟨_, _, valid, path, _, ⟨⟨same, _⟩, _⟩, later⟩
      have equal : valid = first.path := by simpa using same
      intro rule member
      rcases List.mem_cons.mp member with here | there
      · rw [here, path, equal]
      · exact ih later rule there

theorem mem_allRules {policy : AccessPolicy} {username : Text} {rule : Rule}
    (member : rule ∈ policy.rulesFor username) : rule ∈ policy.allRules := by
  unfold allRules
  rcases mem_rulesFor.mp member with everyone | user
  · exact List.mem_append_left _ everyone
  · rcases mem_userRules_iff_entry.mp user with ⟨entry, present, _, listed⟩
    exact List.mem_append_right _ (List.mem_flatMap.mpr ⟨entry, present, listed⟩)

/-- A validated policy spells its rules canonically and denies no empty name. -/
structure WellFormed (policy : AccessPolicy) : Prop where
  named : [] ∉ policy.denySystemComponents
  rules : forall rule, rule ∈ policy.allRules -> validateRelativePath rule.path = .ok rule.path

theorem wellFormed_of_validate {policy : AccessPolicy} (accepted : policy.validate = .ok ()) :
    policy.WellFormed := by
  simp only [validate, bind_eq_ok, refuse_eq_ok, Bool.or_eq_false_iff] at accepted
  rcases accepted with ⟨_, ⟨⟨_, components⟩, _⟩, rules⟩
  refine ⟨?_, validateRules_path rules⟩
  intro empty
  have rejected := List.any_eq_false.mp components [] empty
  simp [invalidComponent] at rejected

section Names

variable {path rulePath : RelativePath}

/-- The segments a canonical path splits into are its names. -/
theorem splitOn_canonical (canonical : validateRelativePath path = .ok path)
    (nonempty : segmentNames path.value ≠ []) :
    path.value.splitOn '/' = segmentNames path.value := by
  have spelled : path.value = Segments.join '/' (segmentNames path.value) :=
    congrArg RelativePath.value (validateRelativePath_eq_ok_iff.mp canonical).2
  conv_lhs => rw [spelled]
  exact Segments.splitOn_join nonempty
    (fun _ member => Segments.separator_not_mem_of_mem_names member)

theorem value_of_no_names (canonical : validateRelativePath path = .ok path)
    (empty : segmentNames path.value = []) : path.value = [] := by
  have spelled : path.value = Segments.join '/' (segmentNames path.value) :=
    congrArg RelativePath.value (validateRelativePath_eq_ok_iff.mp canonical).2
  rw [spelled, empty]
  rfl

/-- Canonical paths are equal when their names are. -/
theorem canonical_eq_iff (canonical : validateRelativePath path = .ok path)
    (ruled : validateRelativePath rulePath = .ok rulePath) :
    path = rulePath ↔ segmentNames rulePath.value = segmentNames path.value := by
  constructor
  · intro same
    rw [same]
  · intro same
    rw [(validateRelativePath_eq_ok_iff.mp canonical).2,
      (validateRelativePath_eq_ok_iff.mp ruled).2]
    exact congrArg (fun names => RelativePath.mk (Segments.join '/' names)) same.symm

/-- A canonical path lies below another exactly when its names continue the
other's.  Below the root lies everything. -/
theorem descendant_iff {rule : Rule} (canonical : validateRelativePath path = .ok path)
    (ruled : validateRelativePath rule.path = .ok rule.path) :
    descendant rule path = true ↔
      segmentNames rule.path.value = [] ∨
        (segmentNames rule.path.value <+: segmentNames path.value ∧
          segmentNames rule.path.value ≠ segmentNames path.value) := by
  have empty : rule.path.value = [] ↔ segmentNames rule.path.value = [] := by
    constructor
    · intro none
      rw [none]
      rfl
    · exact value_of_no_names ruled
  unfold descendant
  rw [Bool.or_eq_true, beq_iff_eq, empty]
  by_cases top : segmentNames rule.path.value = []
  · simp [top]
  · have spelled : path.value = Segments.join '/' (segmentNames path.value) :=
      congrArg RelativePath.value (validateRelativePath_eq_ok_iff.mp canonical).2
    have ruleSpelled : rule.path.value = Segments.join '/' (segmentNames rule.path.value) :=
      congrArg RelativePath.value (validateRelativePath_eq_ok_iff.mp ruled).2
    have named : forall segment, segment ∈ segmentNames rule.path.value ++ segmentNames path.value ->
        '/' ∉ segment ∧ dullSegment segment = false := by
      intro segment member
      rcases List.mem_append.mp member with left | right
      · exact ⟨Segments.separator_not_mem_of_mem_names left, Segments.not_dull_of_mem_names left⟩
      · exact ⟨Segments.separator_not_mem_of_mem_names right, Segments.not_dull_of_mem_names right⟩
    have continues := Segments.join_separator_prefix_iff dullSegment_nil named top
    rw [← spelled, ← ruleSpelled] at continues
    rw [List.isPrefixOf_iff_prefix, continues]

theorem atOrBelow_iff {rule : Rule} (canonical : validateRelativePath path = .ok path)
    (ruled : validateRelativePath rule.path = .ok rule.path) :
    (path == rule.path || descendant rule path) = true ↔
      segmentNames rule.path.value <+: segmentNames path.value := by
  rw [Bool.or_eq_true, beq_iff_eq, canonical_eq_iff canonical ruled,
    descendant_iff canonical ruled]
  constructor
  · rintro (same | top | ⟨inside, _⟩)
    · exact same ▸ List.prefix_refl _
    · rw [top]
      exact List.nil_prefix
    · exact inside
  · intro inside
    by_cases same : segmentNames rule.path.value = segmentNames path.value
    · exact Or.inl same
    · exact Or.inr (Or.inr ⟨inside, same⟩)

theorem deniesComponent_iff {policy : AccessPolicy} {component : Text} :
    policy.deniesComponent component = true ↔ policy.Reserved component := by
  unfold deniesComponent Reserved
  rw [Bool.or_eq_true, Bool.or_eq_true, List.contains_iff_mem, beq_iff_eq,
    List.isPrefixOf_iff_prefix, or_assoc]

variable {policy : AccessPolicy} {username : Text} {root : RootId}

theorem hidden_iff (formed : policy.WellFormed) (canonical : validateRelativePath path = .ok path) :
    policy.hidden username root path = true ↔
      policy.Hidden username root (segmentNames path.value) := by
  unfold hidden Hidden
  rw [Bool.or_eq_true, List.any_eq_true, List.any_eq_true]
  constructor
  · rintro (⟨component, member, reserved⟩ | ⟨rule, member, hides⟩)
    · left
      by_cases top : segmentNames path.value = []
      · rw [value_of_no_names canonical top] at member
        cases List.mem_singleton.mp member
        rcases deniesComponent_iff.mp reserved with listed | trash | staging
        · exact absurd listed formed.named
        · cases trash
        · cases List.prefix_nil.mp staging
      · rw [splitOn_canonical canonical top] at member
        exact ⟨component, member, deniesComponent_iff.mp reserved⟩
    · right
      simp only [AccessPolicy.hides, Bool.and_eq_true, Bool.not_eq_true', concerns_iff,
        List.contains_iff_mem] at hides
      exact ⟨rule, member, hides.1, hides.2.2,
        (atOrBelow_iff canonical (formed.rules rule (mem_allRules member))).mp hides.2.1⟩
  · rintro (⟨component, member, reserved⟩ | ⟨rule, member, concerns, discover, inside⟩)
    · left
      have top : segmentNames path.value ≠ [] := List.ne_nil_of_mem member
      rw [splitOn_canonical canonical top]
      exact ⟨component, member, deniesComponent_iff.mpr reserved⟩
    · right
      refine ⟨rule, member, ?_⟩
      simp only [AccessPolicy.hides, Bool.and_eq_true, Bool.not_eq_true', concerns_iff,
        List.contains_iff_mem]
      exact ⟨concerns,
        (atOrBelow_iff canonical (formed.rules rule (mem_allRules member))).mpr inside, discover⟩

theorem denied_iff {action : Access} (formed : policy.WellFormed)
    (canonical : validateRelativePath path = .ok path) :
    policy.denied username root path action = true ↔
      policy.Denied username root (segmentNames path.value) action := by
  unfold denied Denied
  rw [List.any_eq_true]
  apply exists_congr
  intro rule
  apply and_congr_right
  intro member
  have ruled := formed.rules rule (mem_allRules member)
  simp only [forbids, Bool.and_eq_true, Bool.not_eq_true', concerns_iff, List.contains_iff_mem,
    Bool.or_eq_true, beq_iff_eq, canonical_eq_iff canonical ruled,
    descendant_iff canonical ruled]
  constructor
  · rintro ⟨concerns, place, denies⟩
    refine ⟨concerns, denies, ?_⟩
    rcases place with same | ⟨recursive, top | below⟩
    · exact Or.inl same
    · by_cases same : segmentNames rule.path.value = segmentNames path.value
      · exact Or.inl same
      · exact Or.inr ⟨recursive, by rw [top]; exact List.nil_prefix, same⟩
    · exact Or.inr ⟨recursive, below⟩
  · rintro ⟨concerns, denies, place⟩
    refine ⟨concerns, ?_, denies⟩
    rcases place with same | ⟨recursive, below⟩
    · exact Or.inl same
    · exact Or.inr ⟨recursive, Or.inr below⟩

end Names

/-- The decision as it is documented, on the names of a path. -/
structure Decides (policy : AccessPolicy) (username : Text) (root : RootId) (path : RelativePath)
    (action : Access) : Prop where
  invalid : (∃ error, validateRelativePath path = .error error ∧
    policy.check username root path action = .error error) ↔ ¬ ValidPath path
  notFound : ValidPath path ->
    (policy.check username root path action = .error .notFound ↔
      policy.Hidden username root (segmentNames path.value))
  policyDenied : ValidPath path ->
    (policy.check username root path action = .error .policyDenied ↔
      ¬ policy.Hidden username root (segmentNames path.value) ∧
        policy.Denied username root (segmentNames path.value) action)
  ok : ValidPath path ->
    (policy.check username root path action = .ok () ↔
      ¬ policy.Hidden username root (segmentNames path.value) ∧
        ¬ policy.Denied username root (segmentNames path.value) action)
  /-- Order, layer and repetition of the rules do not matter. -/
  sameRules : forall other, SameDenials policy other username ->
    other.check username root path action = policy.check username root path action
  /-- The spelling of the path does not matter. -/
  sameNames : forall other, ValidPath path -> ValidPath other ->
    segmentNames other.value = segmentNames path.value ->
    policy.check username root other action = policy.check username root path action

/-- What the checks of an accepted policy decide about a path is what its rules
say about the names of the path: hidden before denied, in whatever order the rules
stand and however the path is spelled. -/
theorem check_decides (policy : AccessPolicy) (accepted : policy.validate = .ok ())
    (username : Text) (root : RootId) (path : RelativePath) (action : Access) :
    policy.Decides username root path action := by
  have formed := wellFormed_of_validate accepted
  have spelled := segmentNames_canonicalText path
  have decision : ValidPath path ->
      policy.check username root path action =
          verdict (policy.hidden username root (canonicalText path))
            (policy.denied username root (canonicalText path) action) ∧
        (policy.hidden username root (canonicalText path) = true ↔
          policy.Hidden username root (segmentNames path.value)) ∧
        (policy.denied username root (canonicalText path) action = true ↔
          policy.Denied username root (segmentNames path.value) action) := by
    intro valid
    have canonical := validateRelativePath_idempotent valid.validate
    refine ⟨check_eq_verdict valid.validate, ?_, ?_⟩
    · rw [hidden_iff formed canonical, spelled]
    · rw [denied_iff formed canonical, spelled]
  refine ⟨?_, ?_, ?_, ?_, ?_, ?_⟩
  · constructor
    · rintro ⟨error, rejected, _⟩ valid
      rw [valid.validate] at rejected
      cases rejected
    · intro invalid
      cases outcome : validateRelativePath path with
      | ok valid => exact absurd (validPath_of_ok outcome) invalid
      | error error => exact ⟨error, rfl, check_of_invalid outcome⟩
  · intro valid
    rcases decision valid with ⟨same, hidden, _⟩
    rw [same, verdict_eq_notFound, hidden]
  · intro valid
    rcases decision valid with ⟨same, hidden, denied⟩
    rw [same, verdict_eq_policyDenied, ← Bool.not_eq_true, hidden, denied]
  · intro valid
    rcases decision valid with ⟨same, hidden, denied⟩
    rw [same, verdict_eq_ok, ← Bool.not_eq_true, ← Bool.not_eq_true, hidden, denied]
  · intro other same
    exact same.check.symm
  · intro other valid otherValid same
    exact check_of_segmentNames otherValid valid same

/-- Nobody finds what lies below `private`, and alice does not write into the
directory of her notes. -/
def discreet : AccessPolicy :=
  { AccessPolicy.standard with
    rootRules := [⟨⟨"private".toList⟩, none, true, [.discover]⟩]
    users := (∅ : TextMap UserRules).insert "alice".toList
      ⟨[], [⟨⟨"notes".toList⟩, some ⟨"home".toList⟩, true, [.write]⟩], []⟩ }

theorem check_decides_discreet :
    discreet.validate = .ok () ∧
      discreet.Decides "alice".toList ⟨"home".toList⟩ ⟨"notes/today.txt".toList⟩ .write :=
  ⟨by decide, check_decides discreet (by decide) _ _ _ _⟩

example : discreet.check "alice".toList ⟨"home".toList⟩ ⟨"notes/today.txt".toList⟩ .write =
    .error .policyDenied := by decide

example : discreet.check "bob".toList ⟨"home".toList⟩ ⟨"private/.ssh/key".toList⟩ .read =
    .error .notFound := by decide

/-! ## A ceiling is a conjunction -/

theorem deniesComponent_extendCeiling (policy ceiling : AccessPolicy) (component : Text) :
    (policy.extendCeiling ceiling).deniesComponent component =
      (policy.deniesComponent component || ceiling.deniesComponent component) := by
  apply Bool.eq_iff_iff.mpr
  rw [Bool.or_eq_true, deniesComponent_iff, deniesComponent_iff, deniesComponent_iff]
  unfold Reserved
  rw [mem_components_extendCeiling, or_or_distrib_right]

theorem any_or {Element : Type} (elements : List Element) (first second : Element -> Bool) :
    elements.any (fun element => first element || second element) =
      (elements.any first || elements.any second) := by
  induction elements with
  | nil => rfl
  | cons element rest ih =>
      simp only [List.any_cons, ih]
      ac_rfl

theorem any_rulesFor_extendCeiling (policy ceiling : AccessPolicy) (username : Text)
    (condition : Rule -> Bool) :
    ((policy.extendCeiling ceiling).rulesFor username).any condition =
      ((policy.rulesFor username).any condition || (ceiling.rulesFor username).any condition) := by
  rw [← List.any_append]
  apply any_congr_mem
  intro rule
  rw [mem_rulesFor_extendCeiling, List.mem_append]

theorem hidden_extendCeiling (policy ceiling : AccessPolicy) (username : Text) (root : RootId)
    (path : RelativePath) :
    (policy.extendCeiling ceiling).hidden username root path =
      (policy.hidden username root path || ceiling.hidden username root path) := by
  unfold hidden
  rw [any_rulesFor_extendCeiling]
  have components : (policy.extendCeiling ceiling).deniesComponent =
      fun component => policy.deniesComponent component || ceiling.deniesComponent component :=
    funext (deniesComponent_extendCeiling policy ceiling)
  rw [components, any_or]
  ac_rfl

theorem denied_extendCeiling (policy ceiling : AccessPolicy) (username : Text) (root : RootId)
    (path : RelativePath) (action : Access) :
    (policy.extendCeiling ceiling).denied username root path action =
      (policy.denied username root path action || ceiling.denied username root path action) :=
  any_rulesFor_extendCeiling policy ceiling username _

/-- What several ceilings deny together does not depend on their order, nor on
how often one of them is added. -/
theorem mem_foldl_extendCeiling {policy : AccessPolicy} {ceilings : List AccessPolicy}
    {username : Text} {rule : Rule} :
    rule ∈ (ceilings.foldl extendCeiling policy).rulesFor username ↔
      rule ∈ policy.rulesFor username ∨
        ∃ ceiling, ceiling ∈ ceilings ∧ rule ∈ ceiling.rulesFor username := by
  induction ceilings generalizing policy with
  | nil => simp
  | cons first rest ih =>
      rw [List.foldl_cons, ih, mem_rulesFor_extendCeiling, or_assoc]
      simp only [List.mem_cons, exists_eq_or_imp]

theorem mem_components_foldl {policy : AccessPolicy} {ceilings : List AccessPolicy} {name : Text} :
    name ∈ (ceilings.foldl extendCeiling policy).denySystemComponents ↔
      name ∈ policy.denySystemComponents ∨
        ∃ ceiling, ceiling ∈ ceilings ∧ name ∈ ceiling.denySystemComponents := by
  induction ceilings generalizing policy with
  | nil => simp
  | cons first rest ih =>
      rw [List.foldl_cons, ih, mem_components_extendCeiling, or_assoc]
      simp only [List.mem_cons, exists_eq_or_imp]

theorem sameDenials_foldl {policy : AccessPolicy} {ceilings others : List AccessPolicy}
    (same : forall ceiling, ceiling ∈ ceilings ↔ ceiling ∈ others) (username : Text) :
    SameDenials (ceilings.foldl extendCeiling policy) (others.foldl extendCeiling policy)
      username where
  components := by
    intro name
    rw [mem_components_foldl, mem_components_foldl]
    simp only [same]
  rules := by
    intro rule
    rw [mem_foldl_extendCeiling, mem_foldl_extendCeiling]
    simp only [same]

/-- The decision under a policy that was extended by a ceiling, against the
decisions under the two. -/
structure Conjoins (policy ceiling : AccessPolicy) (username : Text) (root : RootId)
    (path : RelativePath) (action : Access) : Prop where
  ok : (policy.extendCeiling ceiling).check username root path action = .ok () ↔
    policy.check username root path action = .ok () ∧
      ceiling.check username root path action = .ok ()
  notFound : (policy.extendCeiling ceiling).check username root path action = .error .notFound ↔
    policy.check username root path action = .error .notFound ∨
      ceiling.check username root path action = .error .notFound
  otherwise : (policy.extendCeiling ceiling).check username root path action ≠ .ok () ->
    (policy.extendCeiling ceiling).check username root path action ≠ .error .notFound ->
    (policy.extendCeiling ceiling).check username root path action = .error .policyDenied
  repeated : forall ceilings others : List AccessPolicy,
    (forall ceiling, ceiling ∈ ceilings ↔ ceiling ∈ others) ->
    (ceilings.foldl extendCeiling policy).check username root path action =
      (others.foldl extendCeiling policy).check username root path action

/-- A ceiling only takes away.  Under it a path is allowed when the policy and the
ceiling both allow it and hidden when one of them hides it, and neither the order
of several ceilings nor their repetition matters. -/
theorem extendCeiling_conjoins (policy ceiling : AccessPolicy) (username : Text) (root : RootId)
    (path valid : RelativePath) (action : Access)
    (accepted : validateRelativePath path = .ok valid) :
    policy.Conjoins ceiling username root path action := by
  have decision : forall any : AccessPolicy, any.check username root path action =
      verdict (any.hidden username root valid) (any.denied username root valid action) :=
    fun _ => check_eq_verdict accepted
  have extended := decision (policy.extendCeiling ceiling)
  rw [hidden_extendCeiling, denied_extendCeiling] at extended
  have own := decision policy
  have above := decision ceiling
  refine ⟨?_, ?_, ?_, fun ceilings others same => (sameDenials_foldl same username).check⟩
  · rw [extended, own, above, verdict_eq_ok, verdict_eq_ok, verdict_eq_ok, Bool.or_eq_false_iff,
      Bool.or_eq_false_iff]
    exact and_and_and_comm
  · rw [extended, own, above, verdict_eq_notFound, verdict_eq_notFound, verdict_eq_notFound,
      Bool.or_eq_true]
  · rw [extended]
    generalize (policy.hidden username root valid || ceiling.hidden username root valid) = hidden
    generalize (policy.denied username root valid action ||
      ceiling.denied username root valid action) = denied
    cases hidden <;> cases denied <;> simp [verdict]

/-- The ceiling over `discreet` keeps everyone from deleting old notes. -/
theorem extendCeiling_conjoins_discreet :
    validateRelativePath ⟨"notes//old/./a.txt".toList⟩ = .ok ⟨"notes/old/a.txt".toList⟩ ∧
      discreet.Conjoins
        { AccessPolicy.standard with
          rootRules := [⟨⟨"notes/old".toList⟩, none, true, [.delete]⟩] }
        "alice".toList ⟨"home".toList⟩ ⟨"notes//old/./a.txt".toList⟩ .delete :=
  ⟨by decide,
    extendCeiling_conjoins _ _ _ _ _ ⟨"notes/old/a.txt".toList⟩ _ (by decide)⟩

end AccessPolicy

end TealDrive
