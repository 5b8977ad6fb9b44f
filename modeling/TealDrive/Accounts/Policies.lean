import TealDrive.Accounts.Store

namespace TealDrive

open Outcome

/-!
# Stored policies and preferences

An account's own path rules are stored in three layers, and a layer is
replaced as a whole.  The undo preferences are a compare-and-swap on a
revision; they change no generation.
-/

inductive PolicyLayer where
  | root
  | admin
  | personal
deriving DecidableEq

namespace Store

/-- `policies::validate`: the rules as those of one user of the default policy. -/
def validateUserRules (rules : UserRules) : Except StoreError Unit := do
  refuse (decide (rules.rootRules.length > 512) || decide (rules.adminRules.length > 512) ||
    decide (rules.personalRules.length > 512)) .invalidInput
  match ({ AccessPolicy.standard with
    users := AccessPolicy.standard.users.insert "subject".toList rules }).validate with
  | .ok _ => .ok ()
  | .error _ => .error .invalidInput

/-- The length of the serialized record comes from outside. -/
structure RuleEncoding where
  length : UserRules -> Nat

variable (encoding : RuleEncoding)

/-- `policies::load`. -/
def loadPolicy (store : Store) (id : Uuid) : Except StoreError UserRules :=
  match store.accountPolicy.find id with
  | none => .ok .empty
  | some rules => do
      refuse (decide (encoding.length rules > 524288)) .invalidInput
      validateUserRules rules
      return rules

def policy (actor : Authority) (id : Uuid) (store : Store) : Except StoreError UserRules := do
  let target ← store.account id
  store.manageOther actor target
  store.loadPolicy encoding id

/-- The layer a caller may replace. -/
def mayReplace (store : Store) (actor : Authority) (caller target : Account) :
    PolicyLayer -> Except StoreError Unit
  | .root => .error .forbidden
  | .personal => refuse (caller.id != target.id) .forbidden
  | .admin => store.manage actor target

def replaceLayer (rules : UserRules) (replacement : List Rule) : PolicyLayer -> UserRules
  | .root => { rules with rootRules := replacement }
  | .admin => { rules with adminRules := replacement }
  | .personal => { rules with personalRules := replacement }

def setPolicy (now : Nat) (actor : Authority) (id : Uuid) (expectedGeneration : Nat)
    (layer : PolicyLayer) (replacement : List Rule) (store : Store) :
    Except StoreError (Account × Store) := do
  let target ← store.account id
  let caller ← store.authorized actor
  forSome caller (fun caller => store.mayReplace actor caller target layer)
  refuse (target.generation != expectedGeneration || target.status == .deleted) .conflict
  let rules ← store.loadPolicy encoding id
  let replaced := replaceLayer rules replacement layer
  validateUserRules replaced
  refuse (decide (encoding.length replaced > 524288)) .invalidInput
  let stored := { store with accountPolicy := store.accountPolicy.insert id replaced }
  let _ ← number now
  let updated ← stored.execute (.touch now) id
  let final := updated.dropEnrollment target.username
  let result ← final.account id
  return (result, final)

/-! ## Undo preferences -/

structure UndoPreferences where
  hours : Option Nat
  effectiveHours : Nat
  maximumHours : Nat
  revision : Nat
deriving DecidableEq

def undoRevision (store : Store) (id : Uuid) : Nat :=
  (store.undoPreferences.find id).getD 0

/-- `config.validate()` of the journal. -/
def validateJournal (config : JournalConfig) : Except StoreError Unit :=
  refuse (!config.valid) .invalidInput

def undoPreferencesOf (authority : Authority) (config : JournalConfig) (store : Store) :
    Except StoreError UndoPreferences := do
  validateJournal config
  let actor ← store.authorized authority
  let actor ← okOr actor .forbidden
  return ⟨actor.undoHours, min (actor.undoHours.getD config.undoMaxHours) config.undoMaxHours,
    config.undoMaxHours, store.undoRevision actor.id⟩

def setUndoPreferences (now : Nat) (authority : Authority) (config : JournalConfig)
    (hours : Option Nat) (expectedRevision : Nat) (store : Store) :
    Except StoreError (UndoPreferences × Store) := do
  validateJournal config
  refuse (hours.any (fun hours => !within 1 config.undoMaxHours hours)) .invalidInput
  let actor ← store.authorized authority
  let actor ← okOr actor .forbidden
  refuse (store.undoRevision actor.id != expectedRevision) .conflict
  refuse (decide (store.undoRevision actor.id + 1 > i64Max)) .conflict
  let _ ← number now
  let updated ← store.execute (.setUndoHours hours now) actor.id
  let final := { updated with
    undoPreferences := updated.undoPreferences.insert actor.id (store.undoRevision actor.id + 1) }
  let result ← final.undoPreferencesOf authority config
  return (result, final)

end Store

end TealDrive
