import TealDrive.Accounts.Schema
import TealDrive.Policy.Identity

namespace TealDrive

open Outcome

/-!
# The roots an account works in

`home::resolve` derives the roots of an account from its verified home: static
roots are kept when they are that very directory, and a template is moved
there.  The helper resolves its own configuration, restricts the snapshot of
the network process by the result, and resolves the outcome once more without
a template.

The three stages match roots by different keys.  The directory of a static or
generated root is the home.  Restriction compares identifier and directory, so
that a snapshot for another home finds no trusted root.  The last stage keeps
the roots of the home again and caps their quota.
-/

/-! ## Homes -/

/-- `Path::starts_with`. -/
def pathStartsWith (path base : Text) : Bool :=
  (components base).isPrefixOf (components path)

/-- `path.parent() == Some(directory)`. -/
def hasParent (path directory : Text) : Bool :=
  match (components path).getLast? with
  | some .rootDir | none => false
  | some _ => (components path).dropLast == components directory

/-- System trees that never become a file root. -/
def reservedTrees : List Text :=
  ["/etc".toList, "/proc".toList, "/sys".toList, "/dev".toList, "/run".toList, "/boot".toList,
    "/usr".toList, "/bin".toList, "/sbin".toList, "/lib".toList, "/lib64".toList, "/root".toList]

/-- The application's own tree. -/
def applicationTree : Text := "/home/tealdrive".toList

def virtualHomes : Text := "/home/tealdrive/virtual-homes".toList

def safeHome (path : Text) (kind : AccountKind) : Bool :=
  if !isAbsolute path || (components path).any (fun part => part == .parentDir || part == .curDir) ||
      path.contains '\x00' || samePath path "/".toList then false
  else if pathStartsWith path applicationTree then
    kind == .virtual && hasParent path virtualHomes
  else !(reservedTrees ++ [applicationTree]).any (fun reserved => pathStartsWith path reserved)

/-- The home is absolute and lies in no reserved tree.  Of the application's
tree it can only be the directory of a virtual account. -/
structure HomeOutside (path : Text) (kind : AccountKind) : Prop where
  absolute : isAbsolute path = true
  system : forall tree, tree ∈ reservedTrees -> pathStartsWith path tree = false
  application : pathStartsWith path applicationTree = true ->
    kind = .virtual ∧ hasParent path virtualHomes = true

/-- No system tree contains the application's tree, or lies in it. -/
theorem reservedTrees_apart :
    forall tree, tree ∈ reservedTrees ->
      ¬ components tree <+: components applicationTree ∧
        ¬ components applicationTree <+: components tree := by
  simp only [← List.isPrefixOf_iff_prefix]
  decide

theorem homeOutside_of_safeHome {path : Text} {kind : AccountKind}
    (safe : safeHome path kind = true) : HomeOutside path kind := by
  unfold safeHome at safe
  split at safe
  · cases safe
  · rename_i wellFormed
    simp only [Bool.or_eq_true, Bool.not_eq_true', not_or, Bool.not_eq_false] at wellFormed
    have absolute := wellFormed.1.1.1
    split at safe
    · rename_i inside
      rw [Bool.and_eq_true, beq_iff_eq] at safe
      refine ⟨absolute, ?_, fun _ => safe⟩
      intro tree member
      rw [← Bool.not_eq_true]
      intro below
      rcases List.prefix_or_prefix_of_prefix (List.isPrefixOf_iff_prefix.mp below)
        (List.isPrefixOf_iff_prefix.mp inside) with under | above
      · exact (reservedTrees_apart tree member).1 under
      · exact (reservedTrees_apart tree member).2 above
    · rename_i outside
      rw [Bool.not_eq_true', List.any_eq_false] at safe
      refine ⟨absolute, ?_, fun inside => absurd inside outside⟩
      intro tree member
      rw [← Bool.not_eq_true]
      exact safe tree (List.mem_append_left _ member)

/-! ## `home::resolve` -/

/-- A root's quota under the allocation of a virtual account. -/
def capQuota (allocation : Nat) (root : AllowedRoot) : AllowedRoot :=
  { root with quotaBytes := some (root.quotaBytes.elim allocation (fun quota => min quota allocation)) }

/-- The roots at the account's home: the static ones, or the template moved there. -/
def homeRoots (config : AppConfig) (account : Account) (template : Option AllowedRoot) :
    Except TealDriveError (List AllowedRoot) :=
  let static := config.roots.filter (fun root => samePath root.basePath account.home)
  match template with
  | some template => do
      refuse (!static.isEmpty) .validation
      return static ++ [{ template with basePath := account.home }]
  | none => .ok static

/-- The quotas of a virtual account are capped by its allocation. -/
def capRoots (account : Account) (roots : List AllowedRoot) : List AllowedRoot :=
  if account.kind = .virtual then roots.map (capQuota (account.quotaBytes.getD 0)) else roots

section Resolve

variable (parsers : ConfigParsers) (digest : AppConfig -> List UInt8)

def resolveHome (config : AppConfig) (account : Account) (template : Option AllowedRoot) :
    Except TealDriveError AppConfig := do
  refuse (account.status != .active || !account.loginEnabled || account.uid == 0 ||
    account.generation == 0 || !safeHome account.home account.kind) .permissionDenied
  let roots ← homeRoots config account template
  refuse roots.isEmpty .permissionDenied
  let effective := { config with homeTemplate := none, roots := capRoots account roots }
  effective.validate parsers
  return effective

/-- The stages of the helper for one operation: its own configuration resolved
for the account, the snapshot restricted by it, and the result resolved again. -/
def operationConfig (config : AppConfig) (account : Account) (snapshot : PolicySnapshot) :
    Except TealDriveError AppConfig := do
  let ceiling ← resolveHome parsers config account config.homeTemplate
  let restricted ← restrict parsers digest snapshot ceiling
  resolveHome parsers restricted account none

/-- What a successful `resolve` established and returned. -/
structure Resolved (config : AppConfig) (account : Account) (template : Option AllowedRoot)
    (effective : AppConfig) (roots : List AllowedRoot) : Prop where
  safe : safeHome account.home account.kind = true
  found : homeRoots config account template = .ok roots
  nonempty : roots ≠ []
  same : effective = { config with homeTemplate := none, roots := capRoots account roots }
  valid : effective.validate parsers = .ok ()

theorem resolved_of_ok {config effective : AppConfig} {account : Account}
    {template : Option AllowedRoot}
    (accepted : resolveHome parsers config account template = .ok effective) :
    ∃ roots, Resolved parsers config account template effective roots := by
  simp only [resolveHome, bind_eq_ok, refuse_eq_ok, pure_eq_ok, Bool.or_eq_false_iff] at accepted
  rcases accepted with ⟨_, ⟨_, safe⟩, roots, found, _, some_, _, valid, same⟩
  refine ⟨roots, ⟨by simpa using safe, found, ?_, same.symm, same ▸ valid⟩⟩
  intro none
  rw [none] at some_
  cases some_

end Resolve

/-! ## Roots of the home -/

theorem quotaAtMost_refl (quota : Option Nat) : quotaAtMost quota quota :=
  fun limit same => ⟨limit, same, Nat.le_refl limit⟩

theorem quotaAtMost.trans {small middle large : Option Nat} (first : quotaAtMost small middle)
    (second : quotaAtMost middle large) : quotaAtMost small large := by
  intro limit same
  rcases second limit same with ⟨bound, found, below⟩
  rcases first bound found with ⟨least, present, less⟩
  exact ⟨least, present, Nat.le_trans less below⟩

theorem StricterRoot.refl (root : AllowedRoot) : StricterRoot root root where
  rootId := rfl
  basePath := samePath_iff.mpr rfl
  readOnly := le_refl _
  uploadsAllowed := le_refl _
  hiddenFilesAllowed := le_refl _
  isWebRoot := le_refl _
  quotaBytes := quotaAtMost_refl _

theorem StricterRoot.trans {strict middle loose : AllowedRoot} (first : StricterRoot strict middle)
    (second : StricterRoot middle loose) : StricterRoot strict loose where
  rootId := first.rootId.trans second.rootId
  basePath := samePath_iff.mpr
    ((samePath_iff.mp first.basePath).trans (samePath_iff.mp second.basePath))
  readOnly := le_trans second.readOnly first.readOnly
  uploadsAllowed := le_trans first.uploadsAllowed second.uploadsAllowed
  hiddenFilesAllowed := le_trans first.hiddenFilesAllowed second.hiddenFilesAllowed
  isWebRoot := le_trans second.isWebRoot first.isWebRoot
  quotaBytes := first.quotaBytes.trans second.quotaBytes

/-- Only the identifier, the switches and the quota of the loose root matter,
once both are taken at the same directory. -/
theorem StricterRoot.moved {strict loose : AllowedRoot} {directory : Text}
    (stricter : StricterRoot strict { loose with basePath := directory }) :
    StricterRoot strict { loose with basePath := strict.basePath } :=
  { stricter with basePath := samePath_iff.mpr rfl }

theorem capQuota_stricter (allocation : Nat) (root : AllowedRoot) :
    StricterRoot (capQuota allocation root) root where
  rootId := rfl
  basePath := samePath_iff.mpr rfl
  readOnly := le_refl _
  uploadsAllowed := le_refl _
  hiddenFilesAllowed := le_refl _
  isWebRoot := le_refl _
  quotaBytes := by
    intro limit same
    unfold capQuota
    rw [same]
    exact ⟨min limit allocation, rfl, Nat.min_le_left limit allocation⟩

theorem capQuota_le (allocation : Nat) (root : AllowedRoot) :
    ∃ quota, (capQuota allocation root).quotaBytes = some quota ∧ quota ≤ allocation := by
  unfold capQuota
  cases root.quotaBytes with
  | none => exact ⟨allocation, rfl, Nat.le_refl allocation⟩
  | some quota => exact ⟨min quota allocation, rfl, Nat.min_le_right quota allocation⟩

theorem capQuota_capQuota (allocation : Nat) (root : AllowedRoot) :
    capQuota allocation (capQuota allocation root) = capQuota allocation root := by
  unfold capQuota
  cases root.quotaBytes with
  | none => simp
  | some quota => simp

/-- A capped root is one of the roots, possibly with a smaller quota. -/
theorem mem_capRoots {account : Account} {roots : List AllowedRoot} {root : AllowedRoot}
    (member : root ∈ capRoots account roots) :
    ∃ own, own ∈ roots ∧ StricterRoot root own ∧
      (account.kind = .virtual ->
        ∃ quota, root.quotaBytes = some quota ∧ quota ≤ account.quotaBytes.getD 0) := by
  unfold capRoots at member
  split at member
  · rcases List.mem_map.mp member with ⟨own, present, same⟩
    subst same
    exact ⟨own, present, capQuota_stricter _ own, fun _ => capQuota_le _ own⟩
  · rename_i other
    exact ⟨root, member, StricterRoot.refl root, fun kind => absurd kind other⟩

theorem capRoots_capRoots (account : Account) (roots : List AllowedRoot) :
    capRoots account (capRoots account roots) = capRoots account roots := by
  unfold capRoots
  by_cases kind : account.kind = .virtual
  · rw [if_pos kind, if_pos kind, List.map_map]
    apply List.map_congr_left
    intro root _
    exact capQuota_capQuota _ root
  · rw [if_neg kind, if_neg kind]

/-- A root of the configuration, or its template. -/
def RootOrigin (config : AppConfig) (template : Option AllowedRoot) (origin : AllowedRoot) : Prop :=
  origin ∈ config.roots ∨ template = some origin

/-- Every root of the home is a root or the template of the configuration,
taken at the home. -/
theorem mem_homeRoots {config : AppConfig} {account : Account} {template : Option AllowedRoot}
    {roots : List AllowedRoot} (found : homeRoots config account template = .ok roots)
    {root : AllowedRoot} (member : root ∈ roots) :
    samePath root.basePath account.home = true ∧
      ∃ origin, RootOrigin config template origin ∧ origin.rootId = root.rootId ∧
        StricterRoot root { origin with basePath := root.basePath } := by
  have static : root ∈ config.roots.filter (fun root => samePath root.basePath account.home) ->
      samePath root.basePath account.home = true ∧
        ∃ origin, RootOrigin config template origin ∧ origin.rootId = root.rootId ∧
          StricterRoot root { origin with basePath := root.basePath } := by
    intro listed
    rcases List.mem_filter.mp listed with ⟨present, home⟩
    exact ⟨home, root, Or.inl present, rfl, StricterRoot.refl root⟩
  cases template with
  | none =>
      cases found
      exact static member
  | some template =>
      simp only [homeRoots, bind_eq_ok, refuse_eq_ok, pure_eq_ok] at found
      rcases found with ⟨_, _, same⟩
      rw [← same] at member
      rcases List.mem_append.mp member with listed | generated
      · exact static listed
      · have made := List.mem_singleton.mp generated
        subst made
        exact ⟨samePath_iff.mpr rfl, template, Or.inr rfl, rfl, StricterRoot.refl _⟩

section Confined

variable {parsers : ConfigParsers} {digest : AppConfig -> List UInt8}

/-- The roots of a resolved configuration lie at the home, with settings of the
configuration they come from. -/
theorem Resolved.mem {config effective : AppConfig} {account : Account}
    {template : Option AllowedRoot} {roots : List AllowedRoot}
    (resolved : Resolved parsers config account template effective roots) {root : AllowedRoot}
    (member : root ∈ effective.roots) :
    samePath root.basePath account.home = true ∧
      (∃ origin, RootOrigin config template origin ∧ origin.rootId = root.rootId ∧
        StricterRoot root { origin with basePath := root.basePath }) ∧
      (account.kind = .virtual ->
        ∃ quota, root.quotaBytes = some quota ∧ quota ≤ account.quotaBytes.getD 0) := by
  rw [resolved.same] at member
  rcases mem_capRoots member with ⟨own, present, stricter, quota⟩
  rcases mem_homeRoots resolved.found present with ⟨home, origin, listed, named, settings⟩
  refine ⟨?_, ⟨origin, listed, named.trans stricter.rootId.symm,
    (stricter.trans settings).moved⟩, quota⟩
  exact samePath_iff.mpr ((samePath_iff.mp stricter.basePath).trans (samePath_iff.mp home))

/-- Identifiers of a valid configuration decide between its roots and its template. -/
theorem RootOrigin.unique {config : AppConfig} (valid : config.validate parsers = .ok ())
    {first second : AllowedRoot} (one : RootOrigin config config.homeTemplate first)
    (other : RootOrigin config config.homeTemplate second) (same : first.rootId = second.rootId) :
    first = second := by
  cases template : config.homeTemplate with
  | none =>
      have listed : forall {root}, RootOrigin config config.homeTemplate root -> root ∈ config.roots :=
        fun origin => origin.resolve_right (by rw [template]; intro impossible; cases impossible)
      have found := rootFor_of_mem (AppConfig.rootIds_nodup valid) (listed one)
      rw [same, rootFor_of_mem (AppConfig.rootIds_nodup valid) (listed other)] at found
      exact (Option.some.inj found).symm
  | some root =>
      have unrooted := AppConfig.roots_of_template valid template
      have made : forall {origin}, RootOrigin config config.homeTemplate origin -> origin = root := by
        rintro origin (listed | generated)
        · rw [unrooted] at listed
          cases listed
        · rw [template] at generated
          exact (Option.some.inj generated).symm
      rw [made one, made other]

/-- What the last stage leaves of any snapshot. -/
structure Confined (config : AppConfig) (account : Account) (result : AppConfig) : Prop where
  home : HomeOutside account.home account.kind
  template : result.homeTemplate = none
  basePath : forall root, root ∈ result.roots -> samePath root.basePath account.home = true
  origin : forall root, root ∈ result.roots ->
    ∃ origin, RootOrigin config config.homeTemplate origin ∧ origin.rootId = root.rootId
  settings : forall root, root ∈ result.roots ->
    forall origin, RootOrigin config config.homeTemplate origin -> origin.rootId = root.rootId ->
      StricterRoot root { origin with basePath := root.basePath }
  allocation : account.kind = .virtual -> forall root, root ∈ result.roots ->
    ∃ quota, root.quotaBytes = some quota ∧ quota ≤ account.quotaBytes.getD 0

/-- The stages of an accepted operation. -/
theorem operationConfig_eq_ok {config result : AppConfig} {account : Account}
    {snapshot : PolicySnapshot}
    (accepted : operationConfig parsers digest config account snapshot = .ok result) :
    ∃ ceiling restricted,
      resolveHome parsers config account config.homeTemplate = .ok ceiling ∧
        restrict parsers digest snapshot ceiling = .ok restricted ∧
        resolveHome parsers restricted account none = .ok result := by
  rcases bind_eq_ok.mp accepted with ⟨ceiling, first, rest⟩
  rcases bind_eq_ok.mp rest with ⟨restricted, second, third⟩
  exact ⟨ceiling, restricted, first, second, third⟩

theorem confined_of_ok {config result : AppConfig} {account : Account} {snapshot : PolicySnapshot}
    (valid : config.validate parsers = .ok ())
    (accepted : operationConfig parsers digest config account snapshot = .ok result) :
    Confined config account result := by
  rcases operationConfig_eq_ok accepted with ⟨ceiling, restricted, first, second, third⟩
  rcases resolved_of_ok parsers first with ⟨_, ceilingRoots⟩
  rcases resolved_of_ok parsers third with ⟨_, resultRoots⟩
  have merged := restricted_of_ok second
  have traced : forall root, root ∈ result.roots ->
      ∃ origin, RootOrigin config config.homeTemplate origin ∧ origin.rootId = root.rootId ∧
        StricterRoot root { origin with basePath := root.basePath } := by
    intro root member
    rcases (resultRoots.mem member).2.1 with ⟨middle, listed, sameId, settings⟩
    have present : middle ∈ restricted.roots :=
      listed.resolve_right (fun impossible => by cases impossible)
    rcases merged.merged_of_mem present with ⟨own, trusted, _, matched, same⟩
    have origin := trustedRoot_eq_some matched
    have stricter : StricterRoot middle trusted := same ▸ restrictRoot_stricter_trusted matched
    rcases (ceilingRoots.mem origin.1).2.1 with ⟨source, source_, sourceId, inherited⟩
    have moved : StricterRoot { middle with basePath := root.basePath }
        { trusted with basePath := root.basePath } :=
      { stricter with basePath := samePath_iff.mpr rfl }
    have lifted : StricterRoot { trusted with basePath := root.basePath }
        { source with basePath := root.basePath } :=
      { inherited with basePath := samePath_iff.mpr rfl }
    refine ⟨source, source_, ?_, (settings.trans moved).trans lifted⟩
    rw [sourceId, ← stricter.rootId, sameId]
  refine ⟨homeOutside_of_safeHome resultRoots.safe, by rw [resultRoots.same],
    fun root member => (resultRoots.mem member).1, ?_, ?_,
    fun kind root member => (resultRoots.mem member).2.2 kind⟩
  · intro root member
    rcases traced root member with ⟨origin, listed, named, _⟩
    exact ⟨origin, listed, named⟩
  · intro root member origin listed named
    rcases traced root member with ⟨source, source_, sourceId, settings⟩
    have same := RootOrigin.unique valid listed source_ (named.trans sourceId.symm)
    exact same ▸ settings

/-- A configuration resolved for another home has no root the ceiling trusts. -/
theorem foreign_home_refused {config foreign result : AppConfig} {account other : Account}
    {otherConfig : AppConfig} {otherTemplate : Option AllowedRoot} {snapshot : PolicySnapshot}
    (resolved : resolveHome parsers otherConfig other otherTemplate = .ok foreign)
    (different : samePath other.home account.home = false) (carried : snapshot.config = foreign) :
    operationConfig parsers digest config account snapshot ≠ .ok result := by
  intro accepted
  rcases operationConfig_eq_ok accepted with ⟨ceiling, restricted, first, second, third⟩
  rcases resolved_of_ok parsers resolved with ⟨_, foreignRoots⟩
  rcases resolved_of_ok parsers first with ⟨_, ceilingRoots⟩
  rcases resolved_of_ok parsers third with ⟨roots, resultRoots⟩
  have merged := restricted_of_ok second
  -- the last stage needs a root, and every restricted root stems from the snapshot
  have nonempty : ∃ root, root ∈ restricted.roots := by
    rcases List.exists_mem_of_ne_nil _ resultRoots.nonempty with ⟨root, member⟩
    rcases (mem_homeRoots resultRoots.found member).2 with ⟨origin, listed, _⟩
    exact ⟨origin, listed.resolve_right (fun impossible => by cases impossible)⟩
  rcases nonempty with ⟨root, member⟩
  rcases merged.merged_of_mem member with ⟨own, trusted, present, matched, _⟩
  have origin := trustedRoot_eq_some matched
  rw [carried] at present
  have there := samePath_iff.mp (foreignRoots.mem present).1
  have here := samePath_iff.mp (ceilingRoots.mem origin.1).1
  have equal : samePath other.home account.home = true :=
    samePath_iff.mpr (there.symm.trans (origin.2.2.symm.trans here))
  rw [different] at equal
  cases equal

/-- The honest snapshot keeps exactly the ceiling's roots. -/
theorem honest_snapshot_roots {config ceiling result : AppConfig} {account : Account}
    (first : resolveHome parsers config account config.homeTemplate = .ok ceiling)
    (accepted : operationConfig parsers digest config account (PolicySnapshot.new digest ceiling) =
      .ok result) : result.roots = ceiling.roots := by
  rcases operationConfig_eq_ok accepted with ⟨again, restricted, same, second, third⟩
  rw [first] at same
  cases same
  rcases resolved_of_ok parsers first with ⟨roots, ceilingRoots⟩
  rcases resolved_of_ok parsers third with ⟨last, resultRoots⟩
  rw [restrict_self parsers digest ceilingRoots.valid] at second
  rcases bind_eq_ok.mp second with ⟨_, _, merged⟩
  cases merged
  have kept : (selfRestricted ceiling).roots.filter
      (fun root => samePath root.basePath account.home) = ceiling.roots := by
    apply List.filter_eq_self.mpr
    intro root member
    exact (ceilingRoots.mem member).1
  have found : last = ceiling.roots := by
    have same : Except.ok _ = Except.ok last := resultRoots.found
    rw [← Except.ok.inj same, kept]
  have capped : ceiling.roots = capRoots account roots := by rw [ceilingRoots.same]
  rw [resultRoots.same]
  change capRoots account last = ceiling.roots
  rw [found, capped, capRoots_capRoots]

end Confined

/-- No snapshot leaves the account's home, a snapshot for another home is
refused, and the honest one keeps the roots it was taken from. -/
theorem operation_stays_home (parsers : ConfigParsers) (digest : AppConfig -> List UInt8)
    (config : AppConfig) (account : Account) (valid : config.validate parsers = .ok ()) :
    (forall snapshot result,
      operationConfig parsers digest config account snapshot = .ok result ->
      Confined config account result) ∧
    (forall other otherConfig otherTemplate foreign snapshot result,
      resolveHome parsers otherConfig other otherTemplate = .ok foreign ->
      samePath other.home account.home = false -> snapshot.config = foreign ->
      operationConfig parsers digest config account snapshot ≠ .ok result) ∧
    (forall ceiling result,
      resolveHome parsers config account config.homeTemplate = .ok ceiling ->
      operationConfig parsers digest config account (PolicySnapshot.new digest ceiling) =
        .ok result -> result.roots = ceiling.roots) :=
  ⟨fun _ _ accepted => confined_of_ok valid accepted,
    fun _ _ _ _ _ _ resolved different carried => foreign_home_refused resolved different carried,
    fun _ _ first accepted => honest_snapshot_roots first accepted⟩

/-- A Linux account, and a configuration with one static root at its home. -/
def alice : Account where
  username := "alice".toList
  uid := 1000
  gid := 1000
  home := "/home/alice".toList
  kind := .linux
  role := .user
  ownerAdminId := none
  status := .active
  loginEnabled := true
  generation := 1
  quotaBytes := none
  undoHours := none
  createdAt := 1
  updatedAt := 1
  deletedAt := none
  denyEnrollment := false
  id := 1
  globalAdmin := false
  passwordChangeRequired := false
  passwordEnrolled := true

def aliceConfig : AppConfig :=
  { AppConfig.standard with
    roots := [{ AllowedRoot.standard with basePath := "/home/alice".toList }] }

theorem operation_stays_home_alice :
    aliceConfig.validate .loopbackOnly = .ok () ∧
      ∃ result, operationConfig .loopbackOnly (fun _ => List.replicate 32 0) aliceConfig alice
          (PolicySnapshot.new (fun _ => List.replicate 32 0) aliceConfig) = .ok result ∧
        Confined aliceConfig alice result :=
  ⟨by decide, _, rfl,
    (operation_stays_home .loopbackOnly (fun _ => List.replicate 32 0) aliceConfig alice
      (by decide)).1
        (PolicySnapshot.new (fun _ => List.replicate 32 0) aliceConfig) _ rfl⟩

end TealDrive
