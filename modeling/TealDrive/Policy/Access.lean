import Mathlib.Data.List.AList
import Mathlib.Data.List.Sort
import TealDrive.Policy.Path

namespace TealDrive

open Outcome

/-!
# The shared path policy

An access policy denies whole components, and denies actions by path rules in
four layers: the rules for everyone, and a user's root, admin and personal
rules.  Denials only add up.  `check` therefore accepts a path exactly when no
component and no rule refuses it, and a policy that denies at least as much
accepts at most as much.  `extend_ceiling` is such a strengthening in both of
its arguments; this is the fact that keeps a snapshot from widening a ceiling.
-/

inductive Access where
  | discover
  | read
  | write
  | chmod
  | delete
  | move
deriving DecidableEq

structure Rule where
  path : RelativePath
  rootId : Option RootId
  recursive : Bool
  deny : List Access
deriving DecidableEq

structure UserRules where
  rootRules : List Rule
  adminRules : List Rule
  personalRules : List Rule
deriving DecidableEq

/-- `UserRules::default`. -/
def UserRules.empty : UserRules := ⟨[], [], []⟩

/-- The three layers in the order `check` reads them. -/
def UserRules.all (rules : UserRules) : List Rule :=
  rules.rootRules ++ rules.adminRules ++ rules.personalRules

/-- A `BTreeMap` with text keys. -/
abbrev TextMap (Value : Type) := AList (fun _ : Text => Value)

structure AccessPolicy where
  denySystemComponents : List Text
  rejectFileHardlinks : Bool
  rootRules : List Rule
  users : TextMap UserRules

namespace AccessPolicy

/-- `AccessPolicy::default`. -/
def standard : AccessPolicy where
  denySystemComponents := [".ssh".toList, ".gnupg".toList, ".aws".toList, ".kube".toList]
  rejectFileHardlinks := true
  rootRules := []
  users := ∅

/-! ## Validation -/

/-- Whether a text contains a path separator of either system or a NUL. -/
def unsafeName (name : Text) : Bool :=
  name.any (fun symbol => symbol == '/' || symbol == '\\' || symbol == '\x00')

def invalidComponent (name : Text) : Bool :=
  name == [] || decide (name.len > 255) || unsafeName name ||
    name == ".".toList || name == "..".toList

def invalidUser (name : Text) : Bool :=
  name == [] || decide (name.len > 256) || unsafeName name

/-- Every rule of every layer, in the order `validate` counts them. -/
def allRules (policy : AccessPolicy) : List Rule :=
  policy.rootRules ++ policy.users.entries.flatMap (fun entry => entry.2.all)

def validateRules (count : Nat) : List Rule -> Except TealDriveError Unit
  | [] => .ok ()
  | rule :: rest => do
      refuse (decide (count + 1 > 4096) || decide (rule.path.value.len > 4096) ||
        rule.deny.isEmpty || decide (rule.deny.length > 6)) .validation
      let valid ← validateRelativePath rule.path
      refuse (valid != rule.path || rule.path.value.contains '\\' ||
        rule.rootId.any (fun id => id.value == [])) .validation
      validateRules (count + 1) rest

def validate (policy : AccessPolicy) : Except TealDriveError Unit := do
  refuse (decide (policy.denySystemComponents.length > 128) ||
    decide (policy.users.entries.length > 1024) ||
    policy.denySystemComponents.any invalidComponent ||
    policy.users.keys.any invalidUser) .validation
  validateRules 0 policy.allRules

/-! ## Adding the ceiling's denials -/

/-- `Vec::dedup`: drop an element equal to its predecessor. -/
def dedup {Element : Type} [DecidableEq Element] : List Element -> List Element
  | [] => []
  | [only] => [only]
  | first :: second :: rest =>
      if first = second then dedup (second :: rest) else first :: dedup (second :: rest)

/-- `Vec::sort` on strings: code point order, which is byte order in UTF-8. -/
def sort (names : List Text) : List Text :=
  names.insertionSort (fun left right => left ≤ right)

def extendUser (current rules : UserRules) : UserRules where
  rootRules := dedup (current.rootRules ++ rules.rootRules)
  adminRules := dedup (current.adminRules ++ rules.adminRules)
  personalRules := dedup (current.personalRules ++ rules.personalRules)

/-- One turn of the loop over the ceiling's users. -/
def extendEntry (users : TextMap UserRules) (entry : Sigma (fun _ : Text => UserRules)) :
    TextMap UserRules :=
  users.insert entry.1 (extendUser ((users.lookup entry.1).getD .empty) entry.2)

def extendCeiling (policy ceiling : AccessPolicy) : AccessPolicy where
  rejectFileHardlinks := policy.rejectFileHardlinks || ceiling.rejectFileHardlinks
  denySystemComponents :=
    dedup (sort (policy.denySystemComponents ++ ceiling.denySystemComponents))
  rootRules := dedup (policy.rootRules ++ ceiling.rootRules)
  users := ceiling.users.entries.foldl extendEntry policy.users

/-! ## The check -/

/-- A component nobody may name. -/
def deniesComponent (policy : AccessPolicy) (component : Text) : Bool :=
  policy.denySystemComponents.contains component ||
    component == ".tealdrive-trash".toList ||
    ".tdrv-transaction-".toList.isPrefixOf component

/-- The rules that concern a user, those for everyone first. -/
def rulesFor (policy : AccessPolicy) (username : Text) : List Rule :=
  policy.rootRules ++
    match policy.users.lookup username with
    | some rules => rules.all
    | none => []

/-- The path lies strictly below the rule's path, or the rule is about the root. -/
def descendant (rule : Rule) (path : RelativePath) : Bool :=
  rule.path.value == [] || (rule.path.value ++ ['/']).isPrefixOf path.value

/-- The loop over the rules.  An undiscoverable ancestor ends it at once;
other denials are remembered until the end. -/
def checkRules (root : RootId) (path : RelativePath) (action : Access) :
    List Rule -> Bool -> Except TealDriveError Unit
  | [], denied => refuse denied .policyDenied
  | rule :: rest, denied =>
      if rule.rootId.any (fun id => id != root) then checkRules root path action rest denied
      else if (path == rule.path || descendant rule path) && rule.deny.contains .discover then
        .error .notFound
      else
        checkRules root path action rest
          (denied || ((path == rule.path || (rule.recursive && descendant rule path)) &&
            rule.deny.contains action))

def check (policy : AccessPolicy) (username : Text) (root : RootId) (path : RelativePath)
    (action : Access) : Except TealDriveError Unit := do
  let path ← validateRelativePath path
  refuse ((path.value.splitOn '/').any policy.deniesComponent) .notFound
  checkRules root path action (policy.rulesFor username) false

/-- A rule that alone makes `check` refuse. -/
def refuses (root : RootId) (path : RelativePath) (action : Access) (rule : Rule) : Bool :=
  !rule.rootId.any (fun id => id != root) &&
    (((path == rule.path || descendant rule path) && rule.deny.contains .discover) ||
      ((path == rule.path || (rule.recursive && descendant rule path)) &&
        rule.deny.contains action))

theorem checkRules_eq_ok_iff {root : RootId} {path : RelativePath} {action : Access}
    {rules : List Rule} {denied : Bool} :
    checkRules root path action rules denied = .ok () ↔
      denied = false ∧ forall rule, rule ∈ rules -> refuses root path action rule = false := by
  induction rules generalizing denied with
  | nil => simp [checkRules]
  | cons rule rest ih =>
      simp only [checkRules, List.forall_mem_cons, refuses]
      cases other : rule.rootId.any (fun id => id != root) with
      | true => simp only [if_true, ih, Bool.not_true, Bool.false_and, true_and]; rfl
      | false =>
          cases hidden : ((path == rule.path || descendant rule path) &&
              rule.deny.contains .discover) with
          | true => simp
          | false =>
              simp only [Bool.false_eq_true, if_false, ih, Bool.or_eq_false_iff, Bool.not_false,
                Bool.true_and, Bool.false_or, and_assoc]
              rfl

/-- `check` accepts a path exactly when it is valid, names no denied
component, and no rule for the user refuses it. -/
theorem check_eq_ok_iff {policy : AccessPolicy} {username : Text} {root : RootId}
    {path : RelativePath} {action : Access} :
    policy.check username root path action = .ok () ↔
      ∃ valid, validateRelativePath path = .ok valid ∧
        (forall component, component ∈ valid.value.splitOn '/' ->
          policy.deniesComponent component = false) ∧
        forall rule, rule ∈ policy.rulesFor username ->
          refuses root valid action rule = false := by
  simp only [check, bind_eq_ok, refuse_eq_ok, checkRules_eq_ok_iff, List.any_eq_false,
    Bool.not_eq_true, true_and]
  constructor
  · rintro ⟨valid, accepted, _, components, rules⟩
    exact ⟨valid, accepted, components, rules⟩
  · rintro ⟨valid, accepted, components, rules⟩
    exact ⟨valid, accepted, ⟨⟩, components, rules⟩

/-! ## Policies that deny at least as much -/

/-- Every denial of the weaker policy is a denial of the stronger one. -/
structure Covers (strong weak : AccessPolicy) : Prop where
  components : forall name, name ∈ weak.denySystemComponents -> name ∈ strong.denySystemComponents
  rules : forall username rule, rule ∈ weak.rulesFor username -> rule ∈ strong.rulesFor username

theorem Covers.check {strong weak : AccessPolicy} (covers : Covers strong weak)
    {username : Text} {root : RootId} {path : RelativePath} {action : Access}
    (accepted : strong.check username root path action = .ok ()) :
    weak.check username root path action = .ok () := by
  rcases check_eq_ok_iff.mp accepted with ⟨valid, same, components, rules⟩
  refine check_eq_ok_iff.mpr ⟨valid, same, ?_, ?_⟩
  · intro component member
    have allowed := components component member
    simp only [deniesComponent, Bool.or_eq_false_iff] at allowed ⊢
    refine ⟨⟨?_, allowed.1.2⟩, allowed.2⟩
    have unlisted := allowed.1.1
    simp only [List.contains_eq_mem, decide_eq_false_iff_not] at unlisted ⊢
    exact fun listed => unlisted (covers.components component listed)
  · intro rule member
    exact rules rule (covers.rules username rule member)

theorem mem_dedup {Element : Type} [DecidableEq Element] {element : Element}
    {elements : List Element} : element ∈ dedup elements ↔ element ∈ elements := by
  fun_induction dedup elements with
  | case1 => rfl
  | case2 only => rfl
  | case3 rest first ih =>
      rw [ih]
      constructor
      · exact List.mem_cons_of_mem _
      · intro member
        rcases List.mem_cons.mp member with here | there
        · exact here ▸ List.mem_cons_self
        · exact there
  | case4 first second rest different ih =>
      rw [List.mem_cons, ih]
      exact List.mem_cons.symm

theorem mem_extendUser {current rules : UserRules} {rule : Rule} :
    rule ∈ (extendUser current rules).all ↔ rule ∈ current.all ∨ rule ∈ rules.all := by
  simp only [UserRules.all, extendUser, List.mem_append, mem_dedup]
  constructor
  · rintro (((root | root) | (admin | admin)) | (personal | personal))
    · exact Or.inl (Or.inl (Or.inl root))
    · exact Or.inr (Or.inl (Or.inl root))
    · exact Or.inl (Or.inl (Or.inr admin))
    · exact Or.inr (Or.inl (Or.inr admin))
    · exact Or.inl (Or.inr personal)
    · exact Or.inr (Or.inr personal)
  · rintro (((root | admin) | personal) | ((root | admin) | personal))
    · exact Or.inl (Or.inl (Or.inl root))
    · exact Or.inl (Or.inr (Or.inl admin))
    · exact Or.inr (Or.inl personal)
    · exact Or.inl (Or.inl (Or.inr root))
    · exact Or.inl (Or.inr (Or.inr admin))
    · exact Or.inr (Or.inr personal)

/-- The rules a table of users has for one name. -/
def userRules (users : TextMap UserRules) (username : Text) : List Rule :=
  match users.lookup username with
  | some rules => rules.all
  | none => []

theorem mem_userRules {users : TextMap UserRules} {username : Text} {rule : Rule} :
    rule ∈ userRules users username ↔ rule ∈ ((users.lookup username).getD .empty).all := by
  unfold userRules
  cases users.lookup username <;> rfl

theorem mem_extendEntry {users : TextMap UserRules} {entry : Sigma (fun _ : Text => UserRules)}
    {username : Text} {rule : Rule} :
    rule ∈ userRules (extendEntry users entry) username ↔
      rule ∈ userRules users username ∨ (entry.1 = username ∧ rule ∈ entry.2.all) := by
  rw [mem_userRules, mem_userRules]
  unfold extendEntry
  by_cases same : entry.1 = username
  · subst same
    rw [AList.lookup_insert, Option.getD_some, mem_extendUser]
    simp
  · rw [AList.lookup_insert_ne (fun equal => same equal.symm)]
    simp [same]

/-- The loop over the ceiling's users keeps every rule already present and
adds the rules of every entry it visits. -/
theorem mem_foldl_extendEntry (entries : List (Sigma (fun _ : Text => UserRules)))
    (users : TextMap UserRules) {username : Text} {rule : Rule} :
    rule ∈ userRules (entries.foldl extendEntry users) username ↔
      rule ∈ userRules users username ∨
        ∃ entry, entry ∈ entries ∧ entry.1 = username ∧ rule ∈ entry.2.all := by
  induction entries generalizing users with
  | nil => simp
  | cons first rest ih =>
      rw [List.foldl_cons, ih, mem_extendEntry, or_assoc]
      simp only [List.mem_cons, or_and_right, exists_or, exists_eq_left]

theorem mem_rulesFor {policy : AccessPolicy} {username : Text} {rule : Rule} :
    rule ∈ policy.rulesFor username ↔
      rule ∈ policy.rootRules ∨ rule ∈ userRules policy.users username :=
  List.mem_append

theorem mem_userRules_iff_entry {users : TextMap UserRules} {username : Text} {rule : Rule} :
    rule ∈ userRules users username ↔
      ∃ entry, entry ∈ users.entries ∧ entry.1 = username ∧ rule ∈ entry.2.all := by
  unfold userRules
  constructor
  · intro member
    cases found : users.lookup username with
    | none => rw [found] at member; cases member
    | some rules =>
        rw [found] at member
        exact ⟨⟨username, rules⟩, AList.mem_lookup_iff.mp found, rfl, member⟩
  · rintro ⟨⟨name, rules⟩, present, same, member⟩
    subst same
    rw [Option.mem_def.mp (AList.mem_lookup_iff.mpr present)]
    exact member

/-- A rule concerns a user under the extended policy when it does under one of
the two. -/
theorem mem_rulesFor_extendCeiling {policy ceiling : AccessPolicy} {username : Text} {rule : Rule} :
    rule ∈ (policy.extendCeiling ceiling).rulesFor username ↔
      rule ∈ policy.rulesFor username ∨ rule ∈ ceiling.rulesFor username := by
  rw [mem_rulesFor, mem_rulesFor, mem_rulesFor]
  simp only [extendCeiling, mem_dedup, List.mem_append]
  rw [mem_foldl_extendEntry, ← mem_userRules_iff_entry]
  exact or_or_or_comm

theorem mem_components_extendCeiling {policy ceiling : AccessPolicy} {name : Text} :
    name ∈ (policy.extendCeiling ceiling).denySystemComponents ↔
      name ∈ policy.denySystemComponents ∨ name ∈ ceiling.denySystemComponents := by
  simp only [extendCeiling, sort, mem_dedup, List.mem_insertionSort, List.mem_append]

theorem extendCeiling_covers_policy (policy ceiling : AccessPolicy) :
    Covers (policy.extendCeiling ceiling) policy where
  components := fun _ member => mem_components_extendCeiling.mpr (Or.inl member)
  rules := fun _ _ member => mem_rulesFor_extendCeiling.mpr (Or.inl member)

theorem extendCeiling_covers_ceiling (policy ceiling : AccessPolicy) :
    Covers (policy.extendCeiling ceiling) ceiling where
  components := fun _ member => mem_components_extendCeiling.mpr (Or.inr member)
  rules := fun _ _ member => mem_rulesFor_extendCeiling.mpr (Or.inr member)

end AccessPolicy

end TealDrive
