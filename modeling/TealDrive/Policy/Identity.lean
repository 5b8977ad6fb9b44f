import TealDrive.Policy.Decision
import TealDrive.Policy.Restrict

namespace TealDrive

open Outcome

/-!
# A snapshot of the ceiling itself

An honest network process sends a snapshot of the very configuration the
helper trusts.  Restricting it appends every list of the policy to itself.
Decisions do not change, since they read the lists as sets.  The size of the
policy does: only rules that become neighbours are merged, and the result has
to pass the same bound as the original.

So the identity restriction is refused exactly when the appended lists exceed
that bound, and authorizes exactly as the ceiling does when they do not.
-/

namespace AccessPolicy

/-! ## Lists appended to themselves -/

/-- Appending merges the last run of the first list with the first run of the
second, when both are runs of the same element. -/
theorem length_dedup_append {Element : Type} [DecidableEq Element] {first second : List Element}
    (before : first ≠ []) (after : second ≠ []) :
    (dedup (first ++ second)).length + (if first.getLast? = second.head? then 1 else 0) =
      (dedup first).length + (dedup second).length := by
  fun_induction dedup first with
  | case1 => exact absurd rfl before
  | case2 only =>
      cases second with
      | nil => exact absurd rfl after
      | cons next rest =>
          by_cases same : only = next
          · simp [dedup, same, Nat.add_comm]
          · simp [dedup, same, Nat.add_comm]
  | case3 element rest ih =>
      have merged : dedup (element :: element :: rest ++ second) =
          dedup (element :: rest ++ second) := by simp [dedup]
      have last : (element :: element :: rest).getLast? = (element :: rest).getLast? :=
        List.getLast?_cons_cons
      rw [merged, last]
      exact ih (List.cons_ne_nil element rest)
  | case4 element next rest different ih =>
      have kept : dedup (element :: next :: rest ++ second) =
          element :: dedup (next :: rest ++ second) := by simp [dedup, different]
      have last : (element :: next :: rest).getLast? = (next :: rest).getLast? :=
        List.getLast?_cons_cons
      rw [kept, last, List.length_cons, List.length_cons]
      have inner := ih (List.cons_ne_nil next rest)
      omega

/-- How many rules a list has after it was appended to itself: twice its runs
of equal rules, less one when the last run and the first run merge. -/
def appendedLength (rules : List Rule) : Nat :=
  2 * (dedup rules).length - (if rules.getLast? = rules.head? then 1 else 0)

theorem length_dedup_append_self (rules : List Rule) :
    (dedup (rules ++ rules)).length = appendedLength rules := by
  unfold appendedLength
  cases rules with
  | nil => rfl
  | cons first rest =>
      have whole := length_dedup_append (List.cons_ne_nil first rest) (List.cons_ne_nil first rest)
      omega

/-- The rules of one user after they were appended to themselves. -/
def appendedUserLength (rules : UserRules) : Nat :=
  appendedLength rules.rootRules + appendedLength rules.adminRules +
    appendedLength rules.personalRules

/-- The rules of a policy after every list was appended to itself. -/
def appendedRules (policy : AccessPolicy) : Nat :=
  appendedLength policy.rootRules +
    (policy.users.entries.map (fun entry => appendedUserLength entry.2)).sum

theorem length_extendUser_self (rules : UserRules) :
    (extendUser rules rules).all.length = appendedUserLength rules := by
  simp only [UserRules.all, extendUser, List.length_append, length_dedup_append_self,
    appendedUserLength]

/-! ## The users of the extended policy -/

theorem lookup_foldl_extendEntry {entries : List (Sigma (fun _ : Text => UserRules))}
    (unique : entries.NodupKeys) (users : TextMap UserRules) (name : Text) :
    (entries.foldl extendEntry users).lookup name =
      match entries.dlookup name with
      | some rules => some (extendUser ((users.lookup name).getD .empty) rules)
      | none => users.lookup name := by
  induction entries generalizing users with
  | nil => rfl
  | cons first rest ih =>
      rcases List.nodupKeys_cons.mp unique with ⟨fresh, later⟩
      rw [List.foldl_cons, ih later]
      by_cases same : first.1 = name
      · subst same
        rw [List.dlookup_cons_eq, List.dlookup_eq_none.mpr fresh]
        exact AList.lookup_insert _
      · have different : name ≠ first.1 := fun equal => same equal.symm
        have unchanged : (extendEntry users first).lookup name = users.lookup name :=
          AList.lookup_insert_ne different
        rw [List.dlookup_cons_ne _ _ different, unchanged]

/-- The entries of a table of users, each appended to itself. -/
def appendEntry (entry : Sigma (fun _ : Text => UserRules)) : Sigma (fun _ : Text => UserRules) :=
  ⟨entry.1, extendUser entry.2 entry.2⟩

theorem users_extendCeiling_self (policy : AccessPolicy) :
    (policy.extendCeiling policy).users.entries.Perm (policy.users.entries.map appendEntry) := by
  have keys : (policy.users.entries.map appendEntry).keys = policy.users.entries.keys := by
    unfold List.keys
    rw [List.map_map]
    rfl
  have unique : (policy.users.entries.map appendEntry).NodupKeys := by
    unfold List.NodupKeys
    rw [keys]
    exact policy.users.nodupKeys
  refine List.lookup_ext (AList.nodupKeys _) unique ?_
  intro name rules
  have found := lookup_foldl_extendEntry policy.users.nodupKeys policy.users name
  have mapped : (policy.users.entries.map appendEntry).dlookup name =
      (policy.users.entries.dlookup name).map (fun rules => extendUser rules rules) :=
    @List.dlookup_map₂ Text _ (fun _ => UserRules) (fun _ => UserRules) policy.users.entries
      (fun _ rules => extendUser rules rules) name
  change rules ∈ (policy.users.entries.foldl extendEntry policy.users).lookup name ↔ _
  rw [found, mapped]
  change _ ↔ rules ∈ (policy.users.lookup name).map (fun rules => extendUser rules rules)
  cases present : policy.users.entries.dlookup name with
  | none =>
      have absent : policy.users.lookup name = none := present
      simp [absent]
  | some own =>
      have listed : policy.users.lookup name = some own := present
      simp [listed]

theorem length_allRules_extendCeiling_self (policy : AccessPolicy) :
    (policy.extendCeiling policy).allRules.length = policy.appendedRules := by
  unfold allRules appendedRules
  rw [List.length_append, List.length_flatMap]
  have users := ((users_extendCeiling_self policy).map
    (fun entry => entry.2.all.length)).sum_nat
  rw [users, List.map_map]
  congr 1
  · exact length_dedup_append_self policy.rootRules
  · congr 1
    apply List.map_congr_left
    intro entry _
    exact length_extendUser_self entry.2

/-! ## Validation of the extended policy -/

/-- Validation counts the rules and looks at each one alone. -/
theorem validateRules_iff {count : Nat} {rules : List Rule} :
    validateRules count rules = .ok () ↔
      (rules ≠ [] -> count + rules.length ≤ 4096) ∧
        forall rule, rule ∈ rules -> validateRules 0 [rule] = .ok () := by
  induction rules generalizing count with
  | nil => simp [validateRules]
  | cons first rest ih =>
      have alone : validateRules count (first :: rest) = .ok () ↔
          count + 1 ≤ 4096 ∧ validateRules 0 [first] = .ok () ∧
            validateRules (count + 1) rest = .ok () := by
        simp only [validateRules, bind_eq_ok, refuse_eq_ok, Bool.or_eq_false_iff,
          decide_eq_false_iff_not, gt_iff_lt, Nat.not_lt]
        constructor
        · rintro ⟨_, ⟨⟨⟨number, size⟩, some_⟩, few⟩, valid, path, _, rest, later⟩
          exact ⟨number, ⟨⟨⟩, ⟨⟨⟨by omega, size⟩, some_⟩, few⟩, valid, path, ⟨⟩, rest, trivial⟩,
            later⟩
        · rintro ⟨number, ⟨_, ⟨⟨⟨_, size⟩, some_⟩, few⟩, valid, path, _, rest, _⟩, later⟩
          exact ⟨⟨⟩, ⟨⟨⟨number, size⟩, some_⟩, few⟩, valid, path, ⟨⟩, rest, later⟩
      rw [alone, ih, List.forall_mem_cons, List.length_cons]
      constructor
      · rintro ⟨number, here, bound, later⟩
        refine ⟨fun _ => ?_, here, later⟩
        by_cases none : rest = []
        · rw [none, List.length_nil]
          exact number
        · have total := bound none
          omega
      · rintro ⟨bound, here, later⟩
        have total := bound (List.cons_ne_nil first rest)
        exact ⟨by omega, here, fun _ => by omega, later⟩

theorem mem_allRules_extendCeiling_self {policy : AccessPolicy} {rule : Rule}
    (member : rule ∈ (policy.extendCeiling policy).allRules) : rule ∈ policy.allRules := by
  unfold allRules at member ⊢
  rcases List.mem_append.mp member with everyone | user
  · apply List.mem_append_left
    simpa [extendCeiling, mem_dedup] using everyone
  · apply List.mem_append_right
    rcases List.mem_flatMap.mp user with ⟨entry, present, listed⟩
    rcases List.mem_map.mp ((users_extendCeiling_self policy).mem_iff.mp present) with
      ⟨own, origin, same⟩
    subst same
    exact List.mem_flatMap.mpr ⟨own, origin, (mem_extendUser.mp listed).elim id id⟩

theorem keys_extendCeiling_self (policy : AccessPolicy) :
    (policy.extendCeiling policy).users.keys.Perm policy.users.keys := by
  have mapped := (users_extendCeiling_self policy).map Sigma.fst
  rw [List.map_map] at mapped
  exact mapped

/-- A sorted list loses all its repetitions, not only those that are neighbours
by chance. -/
theorem nodup_dedup_of_sorted {elements : List Text}
    (sorted : elements.Pairwise (fun left right => left ≤ right)) : (dedup elements).Nodup := by
  fun_induction dedup elements with
  | case1 => exact List.nodup_nil
  | case2 only => exact List.nodup_singleton only
  | case3 element rest ih => exact ih (List.pairwise_cons.mp sorted).2
  | case4 first second rest different ih =>
      rcases List.pairwise_cons.mp sorted with ⟨least, later⟩
      refine List.nodup_cons.mpr ⟨?_, ih later⟩
      intro repeated
      rw [mem_dedup] at repeated
      rcases List.mem_cons.mp repeated with here | there
      · exact different here
      · have below := (List.pairwise_cons.mp later).1 first there
        exact different (le_antisymm (least second List.mem_cons_self) below)

theorem length_components_extendCeiling_self (policy : AccessPolicy) :
    (policy.extendCeiling policy).denySystemComponents.length ≤
      policy.denySystemComponents.length := by
  have sorted : (sort (policy.denySystemComponents ++ policy.denySystemComponents)).Pairwise
      (fun left right => left ≤ right) := List.pairwise_insertionSort _ _
  have unique : (policy.extendCeiling policy).denySystemComponents.Nodup :=
    nodup_dedup_of_sorted sorted
  apply (List.subperm_of_subset unique _).length_le
  intro name member
  exact (mem_components_extendCeiling.mp member).elim id id

/-- A valid policy that is its own ceiling stays valid exactly when its
appended rules fit the bound. -/
theorem validate_extendCeiling_self {policy : AccessPolicy} (accepted : policy.validate = .ok ()) :
    (policy.extendCeiling policy).validate = .ok () ↔ policy.appendedRules ≤ 4096 := by
  simp only [validate, bind_eq_ok, refuse_eq_ok, Bool.or_eq_false_iff, decide_eq_false_iff_not,
    gt_iff_lt, Nat.not_lt, List.any_eq_false] at accepted ⊢
  rcases accepted with ⟨_, ⟨⟨⟨components, users⟩, named⟩, keyed⟩, rules⟩
  have each := (validateRules_iff.mp rules).2
  rw [← length_allRules_extendCeiling_self, validateRules_iff]
  constructor
  · rintro ⟨_, _, bound, _⟩
    by_cases none : (policy.extendCeiling policy).allRules = []
    · rw [none]
      exact Nat.zero_le _
    · have total := bound none
      omega
  · intro bound
    refine ⟨⟨⟩, ⟨⟨⟨?_, ?_⟩, ?_⟩, ?_⟩, fun _ => by omega, ?_⟩
    · exact Nat.le_trans (length_components_extendCeiling_self policy) components
    · have entries := (users_extendCeiling_self policy).length_eq
      rw [List.length_map] at entries
      rw [entries]
      exact users
    · intro name member
      exact named name ((mem_components_extendCeiling.mp member).elim id id)
    · intro name member
      exact keyed name ((keys_extendCeiling_self policy).mem_iff.mp member)
    · intro rule member
      exact each rule (mem_allRules_extendCeiling_self member)

theorem sameDenials_extendCeiling_self (policy : AccessPolicy) (username : Text) :
    SameDenials (policy.extendCeiling policy) policy username where
  components := fun _ => mem_components_extendCeiling.trans (or_self_iff)
  rules := fun _ => mem_rulesFor_extendCeiling.trans (or_self_iff)

end AccessPolicy

/-! ## Configurations that authorize alike -/

/-- Two configurations that answer every question of `authorize` alike. -/
structure AnswersAlike (first second : AppConfig) : Prop where
  check : forall username root path access,
    first.accessPolicy.check username root path access =
      second.accessPolicy.check username root path access
  limits : first.limits = second.limits
  roots : first.roots = second.roots
  sensitive : forall path,
    detectSensitive path first.sensitivePolicy = detectSensitive path second.sensitivePolicy
  webroot : forall name,
    deniesWebrootUpload name first.webrootPolicy = deniesWebrootUpload name second.webrootPolicy

namespace AnswersAlike

variable {first second : AppConfig} {request : HelperRequest}

theorem checkPath (alike : AnswersAlike first second) (aliases : Aliases) :
    request.checkPath aliases first = request.checkPath aliases second := by
  funext path access
  exact alike.check _ _ _ _

theorem checkWriteOptions (alike : AnswersAlike first second) (command : HelperCommand)
    (options : HelperWriteOptions) :
    TealDrive.checkWriteOptions command options first =
      TealDrive.checkWriteOptions command options second := by
  unfold TealDrive.checkWriteOptions writeBound
  rw [alike.limits]

theorem checkRoot (alike : AnswersAlike first second) (root : AllowedRoot) :
    TealDrive.checkRoot request first root = TealDrive.checkRoot request second root := by
  unfold TealDrive.checkRoot checkWebroot
  simp only [alike.sensitive, alike.webroot]

/-- The two configurations authorize the same requests, and refuse the others
with the same error. -/
theorem authorize (alike : AnswersAlike first second) (uuids : UuidFormat) (aliases : Aliases)
    (request : HelperRequest) :
    HelperPolicy.authorize uuids aliases request first =
      HelperPolicy.authorize uuids aliases request second := by
  unfold HelperPolicy.authorize HelperAccess.authorize
  simp only [alike.checkPath, alike.checkWriteOptions, alike.checkRoot, alike.roots]

end AnswersAlike

/-! ## The identity restriction -/

theorem mergeQuota_self (quota : Option Nat) : mergeQuota quota quota = quota := by
  cases quota with
  | none => rfl
  | some limit => exact congrArg some (Nat.min_self limit)

theorem restrictRoot_self (root : AllowedRoot) : restrictRoot root root = root := by
  unfold restrictRoot
  rw [mergeQuota_self, Bool.or_self, Bool.and_self, Bool.and_self, Bool.or_self]

theorem trustedRoot_self {ceiling : List AllowedRoot} {root : AllowedRoot}
    (unique : (ceiling.map (fun root => root.rootId)).Nodup) (member : root ∈ ceiling) :
    trustedRoot ceiling root = some root := by
  unfold trustedRoot
  induction ceiling with
  | nil => cases member
  | cons first rest ih =>
      rw [List.map_cons, List.nodup_cons] at unique
      rcases List.mem_cons.mp member with here | there
      · subst here
        exact List.find?_cons_of_pos (by simp [samePath])
      · have different : first.rootId ≠ root.rootId := by
          intro same
          exact unique.1 (same ▸ List.mem_map_of_mem there)
        rw [List.find?_cons_of_neg (by simp [different])]
        exact ih unique.2 there

theorem restrictRoots_self {ceiling roots : List AllowedRoot}
    (unique : (ceiling.map (fun root => root.rootId)).Nodup) (inside : roots ⊆ ceiling) :
    restrictRoots ceiling roots = .ok roots := by
  induction roots with
  | nil => rfl
  | cons root rest ih =>
      have trusted := trustedRoot_self unique (inside List.mem_cons_self)
      have others := ih (fun other member => inside (List.mem_cons_of_mem root member))
      simp only [restrictRoots, trusted, others, bind_eq_ok, okOr_eq_ok, pure_eq_ok]
      exact ⟨root, rfl, rest, rfl, by rw [restrictRoot_self]⟩

theorem restrictFeatures_self (features : FeatureFlags) :
    restrictFeatures features features = features := by
  simp only [restrictFeatures, Bool.and_self]

theorem restrictLimits_self (limits : Limits) : restrictLimits limits limits = limits := by
  simp only [restrictLimits, Nat.min_self]

section Identity

variable (parsers : ConfigParsers) (digest : AppConfig -> List UInt8)

/-- What the identity restriction returns: the ceiling, with every list of its
policies appended to itself. -/
def selfRestricted (ceiling : AppConfig) : AppConfig :=
  { ceiling with
    accessPolicy := ceiling.accessPolicy.extendCeiling ceiling.accessPolicy
    sensitivePolicy := restrictSensitive ceiling.sensitivePolicy ceiling.sensitivePolicy
    webrootPolicy := restrictWebroot ceiling.webrootPolicy ceiling.webrootPolicy }

theorem restrict_self {ceiling : AppConfig} (accepted : ceiling.validate parsers = .ok ()) :
    restrict parsers digest (PolicySnapshot.new digest ceiling) ceiling =
      (ceiling.accessPolicy.extendCeiling ceiling.accessPolicy).validate >>=
        fun _ => .ok (selfRestricted ceiling) := by
  have snapshot : (PolicySnapshot.new digest ceiling).validate parsers digest = .ok () := by
    simp only [PolicySnapshot.validate, bind_eq_ok, refuse_eq_ok]
    exact ⟨⟨⟩, accepted, by simp [PolicySnapshot.new]⟩
  have roots : restrictRoots ceiling.roots ceiling.roots = .ok ceiling.roots :=
    restrictRoots_self (AppConfig.rootIds_nodup accepted) (List.Subset.refl _)
  unfold restrict
  rw [snapshot]
  change ((ceiling.accessPolicy.extendCeiling ceiling.accessPolicy).validate >>= fun _ =>
    restrictRoots ceiling.roots ceiling.roots >>= fun roots => _) = _
  rw [roots]
  congr 1
  funext _
  change Except.ok _ = Except.ok _
  unfold selfRestricted PolicySnapshot.new
  simp only [restrictFeatures_self, restrictLimits_self]

theorem selfRestricted_alike (ceiling : AppConfig) :
    AnswersAlike (selfRestricted ceiling) ceiling where
  check := fun username _ _ _ =>
    (AccessPolicy.sameDenials_extendCeiling_self ceiling.accessPolicy username).check
  limits := rfl
  roots := rfl
  sensitive := by
    intro path
    apply Bool.eq_iff_iff.mpr
    rw [← Bool.not_eq_false, ← Bool.not_eq_false]
    exact not_congr (detectSensitive_restrictSensitive.trans (and_self_iff))
  webroot := by
    intro name
    unfold deniesWebrootUpload selfRestricted restrictWebroot
    simp only [Bool.or_self, List.contains_eq_mem, List.mem_append, or_self]

end Identity

/-- The identity restriction changes nothing, whenever the ceiling's rules,
each list appended to itself, are no more than the bound.  Otherwise it is
refused. -/
theorem identity_restriction_iff (parsers : ConfigParsers) (digest : AppConfig -> List UInt8)
    (ceiling : AppConfig) (accepted : ceiling.validate parsers = .ok ()) :
    (∃ config, restrict parsers digest (PolicySnapshot.new digest ceiling) ceiling = .ok config ∧
      forall uuids aliases request,
        HelperPolicy.authorize uuids aliases request config =
          HelperPolicy.authorize uuids aliases request ceiling) ↔
      ceiling.accessPolicy.appendedRules ≤ 4096 := by
  have policy := AppConfig.accessPolicy_valid accepted
  rw [← AccessPolicy.validate_extendCeiling_self policy, restrict_self parsers digest accepted]
  constructor
  · rintro ⟨config, restricted, _⟩
    rcases bind_eq_ok.mp restricted with ⟨_, valid, _⟩
    exact valid
  · intro valid
    refine ⟨selfRestricted ceiling, ?_, (selfRestricted_alike ceiling).authorize⟩
    rw [valid]
    rfl

theorem identity_restriction_discreet :
    ({ AppConfig.standard with accessPolicy := .discreet } : AppConfig).validate .loopbackOnly =
        .ok () ∧
      ∃ config, restrict .loopbackOnly (fun _ => List.replicate 32 0)
          (PolicySnapshot.new (fun _ => List.replicate 32 0)
            { AppConfig.standard with accessPolicy := .discreet })
          { AppConfig.standard with accessPolicy := .discreet } = .ok config ∧
        forall uuids aliases request,
          HelperPolicy.authorize uuids aliases request config =
            HelperPolicy.authorize uuids aliases request
              { AppConfig.standard with accessPolicy := .discreet } :=
  ⟨by decide, (identity_restriction_iff .loopbackOnly (fun _ => List.replicate 32 0)
    { AppConfig.standard with accessPolicy := .discreet } (by decide)).mpr (by decide)⟩

/-! ## A policy that is refused -/

namespace Crowded

/-- Read-only directories `d`, `dx`, `dxx` and so on. -/
def rule (index : Nat) : Rule :=
  ⟨⟨'d' :: List.replicate index 'x'⟩, none, false, [.write]⟩

theorem rule_injective {left right : Nat} (same : rule left = rule right) : left = right := by
  have lengths := congrArg (fun rule : Rule => rule.path.value.length) same
  simpa [rule] using lengths

def policy (count : Nat) : AccessPolicy :=
  { AccessPolicy.standard with rootRules := (List.range count).map rule }

def ceiling (count : Nat) : AppConfig :=
  { AppConfig.standard with accessPolicy := policy count }

theorem rule_canonical (index : Nat) :
    validateRelativePath (rule index).path = .ok (rule index).path := by
  have letters : forall symbol, symbol ∈ (rule index).path.value -> symbol = 'd' ∨ symbol = 'x' := by
    intro symbol member
    rcases List.mem_cons.mp member with first | later
    · exact Or.inl first
    · exact Or.inr (List.eq_of_mem_replicate later)
  have unsplit : '/' ∉ (rule index).path.value := by
    intro member
    rcases letters '/' member with same | same <;> cases same
  have named : dullSegment (rule index).path.value = false := by
    simp [dullSegment, rule]
  have names : segmentNames (rule index).path.value = [(rule index).path.value] := by
    unfold segmentNames
    rw [Segments.names_of_separator_not_mem unsplit, named]
    rfl
  refine validateRelativePath_eq_ok_iff.mpr ⟨⟨?_, rfl, ?_⟩, ?_⟩
  · intro member
    rcases letters _ member with same | same <;> cases same
  · rw [names, List.mem_singleton]
    intro same
    cases same
  · unfold canonicalText
    rw [show Segments.normalize '/' dullSegment (rule index).path.value =
      Segments.join '/' (segmentNames (rule index).path.value) from rfl, names]
    simp [Segments.join, List.intercalate]

theorem rule_valid {index : Nat} (bound : index < 4096) :
    AccessPolicy.validateRules 0 [rule index] = .ok () := by
  have length : (rule index).path.value.len = index + 1 := by
    simp only [rule, Text.len, List.map_cons, List.map_replicate, List.sum_cons,
      List.sum_replicate_nat]
    have single : 'x'.utf8Size = 1 := rfl
    have first : 'd'.utf8Size = 1 := rfl
    rw [single, first, Nat.mul_one, Nat.add_comm]
  have letters : (rule index).path.value.contains '\\' = false := by
    simp [rule, List.mem_replicate]
  simp only [AccessPolicy.validateRules, bind_eq_ok, refuse_eq_ok]
  refine ⟨⟨⟩, ?_, (rule index).path, rule_canonical index, ⟨⟩, ?_, trivial⟩
  · rw [length]
    simp [rule]
    omega
  · rw [letters]
    simp [rule]

theorem policy_valid {count : Nat} (bound : count ≤ 4096) : (policy count).validate = .ok () := by
  simp only [AccessPolicy.validate, bind_eq_ok, refuse_eq_ok]
  have components : (policy count).denySystemComponents =
      AccessPolicy.standard.denySystemComponents := rfl
  have users : (policy count).users = AccessPolicy.standard.users := rfl
  rw [components, users]
  refine ⟨⟨⟩, by decide, ?_⟩
  have rules : (policy count).allRules = (List.range count).map rule := by
    simp [AccessPolicy.allRules, policy, AccessPolicy.standard]
  rw [rules, AccessPolicy.validateRules_iff]
  refine ⟨fun _ => by simpa using bound, ?_⟩
  intro member present
  rcases List.mem_map.mp present with ⟨index, inside, same⟩
  have below := List.mem_range.mp inside
  exact same ▸ rule_valid (by omega)

theorem dedup_of_nodup {Element : Type} [DecidableEq Element] {elements : List Element}
    (unique : elements.Nodup) : AccessPolicy.dedup elements = elements := by
  fun_induction AccessPolicy.dedup elements with
  | case1 => rfl
  | case2 only => rfl
  | case3 element rest ih => exact absurd List.mem_cons_self (List.nodup_cons.mp unique).1
  | case4 first second rest different ih => rw [ih (List.nodup_cons.mp unique).2]

/-- Distinct rules are all kept, so their number doubles. -/
theorem appendedRules_policy {count : Nat} (several : 2 ≤ count) :
    (policy count).appendedRules = 2 * count := by
  have unique : ((List.range count).map rule).Nodup :=
    List.Nodup.map (fun _ _ same => rule_injective same) List.nodup_range
  have ends : ((List.range count).map rule).getLast? ≠ ((List.range count).map rule).head? := by
    rw [List.getLast?_map, List.head?_map]
    intro same
    have indices := Option.map_injective (fun _ _ equal => rule_injective equal) same
    rw [List.getLast?_range, List.head?_range, if_neg (by omega), if_neg (by omega)] at indices
    have last := Option.some.inj indices
    omega
  have users : (policy count).users.entries = [] := rfl
  have rules : (policy count).rootRules = (List.range count).map rule := rfl
  unfold AccessPolicy.appendedRules AccessPolicy.appendedLength
  rw [users, rules, dedup_of_nodup unique, if_neg ends, List.length_map, List.length_range,
    List.map_nil, List.sum_nil]
  rfl

/-- Any valid policy can take the place of the standard one. -/
theorem standard_with_policy {policy : AccessPolicy} (valid : policy.validate = .ok ()) :
    ({ AppConfig.standard with accessPolicy := policy } : AppConfig).validate .loopbackOnly =
      .ok () := by
  have standard : AppConfig.standard.validate .loopbackOnly = .ok () := by decide
  simp only [AppConfig.validate, AppConfig.validateHead, bind_eq_ok] at standard ⊢
  rcases standard with ⟨_, ⟨_, h1, _, h2, _, h3, _, h4, _, h5, _, h6, _, h7, _, h8, _, h9, _, h10, _,
    _, last⟩, tail⟩
  exact ⟨⟨⟩, ⟨⟨⟩, h1, ⟨⟩, h2, ⟨⟩, h3, ⟨⟩, h4, ⟨⟩, h5, ⟨⟩, h6, ⟨⟩, h7, ⟨⟩, h8, ⟨⟩, h9, ⟨⟩, h10, ⟨⟩,
    valid, last⟩, tail⟩

theorem ceiling_valid {count : Nat} (bound : count ≤ 4096) :
    (ceiling count).validate .loopbackOnly = .ok () :=
  standard_with_policy (policy_valid bound)

end Crowded

/-- A valid ceiling with 2049 rules: its own snapshot is refused. -/
theorem crowded_snapshot_refused :
    (Crowded.ceiling 2049).validate .loopbackOnly = .ok () ∧
      forall config, restrict .loopbackOnly (fun _ => List.replicate 32 0)
        (PolicySnapshot.new (fun _ => List.replicate 32 0) (Crowded.ceiling 2049))
          (Crowded.ceiling 2049) ≠ .ok config := by
  have small : 2049 ≤ 4096 := by decide
  refine ⟨Crowded.ceiling_valid small, ?_⟩
  intro config restricted
  rw [restrict_self .loopbackOnly _ (Crowded.ceiling_valid small)] at restricted
  rcases bind_eq_ok.mp restricted with ⟨_, valid, _⟩
  have bound := (AccessPolicy.validate_extendCeiling_self (Crowded.policy_valid small)).mp valid
  rw [Crowded.appendedRules_policy (by decide)] at bound
  omega

end TealDrive
