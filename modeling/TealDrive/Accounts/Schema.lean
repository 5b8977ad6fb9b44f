import TealDrive.Library.Register
import TealDrive.Policy.Authorize

namespace TealDrive

open Outcome

/-!
# The account database

The relations are those of `schema.sql` after its second migration.  The
generic `security_state` relation is kept as one table for each family of its
keys, since every statement of the source names one family.  Identifiers that
the source draws as random UUIDs are numbers here; whoever draws one passes it
to the operation.

An operation that fails inside a transaction leaves the database as it was.
Operations therefore return the new store together with their result, and an
error carries no store.
-/

/-- A UUID, as the number it spells. -/
abbrev Uuid := Nat

inductive StoreError where
  | rateLimited
  | invalidInput
  | conflict
  | notFound
  | forbidden
  | quotaExceeded
  | invalidCredentials
  | untrustedStore
  | passwordHash
  | database
deriving DecidableEq

inductive AccountKind where
  | linux
  | virtual
deriving DecidableEq

inductive Role where
  | user
  | admin
deriving DecidableEq

inductive AccountStatus where
  | active
  | suspended
  | revoked
  | deleted
deriving DecidableEq

/-- The columns an account row shows to its readers. -/
structure AccountColumns where
  username : Text
  uid : Nat
  gid : Nat
  home : Text
  kind : AccountKind
  role : Role
  ownerAdminId : Option Uuid
  status : AccountStatus
  loginEnabled : Bool
  generation : Nat
  quotaBytes : Option Nat
  undoHours : Option Nat
  createdAt : Nat
  updatedAt : Nat
  deletedAt : Option Nat
  denyEnrollment : Bool
deriving DecidableEq

/-- A row of `accounts`. -/
structure AccountRow extends AccountColumns where
  webPasswordHash : Option Text
deriving DecidableEq

/-- An account as `row_account` returns it. -/
structure Account extends AccountColumns where
  id : Uuid
  globalAdmin : Bool
  passwordChangeRequired : Bool
  passwordEnrolled : Bool
deriving DecidableEq

structure NewAccount where
  username : Text
  uid : Nat
  gid : Nat
  home : Text
  kind : AccountKind
  role : Role
  ownerAdminId : Option Uuid
  quotaBytes : Option Nat
deriving DecidableEq

inductive Authority where
  | root
  | account (id : Uuid) (generation : Nat)
deriving DecidableEq

/-! ## Provisioning intents -/

/-- Who a pending creation draws on: the pool, or an administrator's budget. -/
inductive IntentOwner where
  | root
  | account (id : Uuid)
deriving DecidableEq

/-- `virtual_create_v1:{owner}:{request}`. -/
structure IntentKey where
  owner : IntentOwner
  request : Uuid
deriving DecidableEq

structure Intent where
  version : Nat
  owner : IntentOwner
  name : Text
  quota : Nat
  uid : Nat
  accountId : Option Uuid
deriving DecidableEq

/-! ## Sessions and enrollment -/

structure CallerBinding where
  uid : Nat
  pid : Nat
  startTime : Nat
  bootId : Uuid
deriving DecidableEq

structure GrantRow where
  accountId : Uuid
  accountGeneration : Nat
  caller : CallerBinding
  expiresAt : Nat
  revoked : Bool
deriving DecidableEq

structure EnrollmentRow where
  username : Text
  uid : Nat
  gid : Nat
  home : Text
  caller : CallerBinding
  expiresAt : Nat
  consumed : Bool
deriving DecidableEq

inductive LimitScope where
  | account
  | ip
  | global
deriving DecidableEq

structure LimitRow where
  failures : Nat
  lockUntil : Nat
  updatedAt : Nat
deriving DecidableEq

/-! ## The operation journal -/

inductive FileKind where
  | file
  | directory
  | other
deriving DecidableEq

structure FileState where
  digest : Text
  device : Text
  inode : Text
  kind : FileKind
  mode : Nat
  uid : Nat
  gid : Nat
  size : Nat
  links : Nat
  mtimeSeconds : Int
  mtimeNanos : Int
  ctimeSeconds : Int
  ctimeNanos : Int
  contentDigest : Option Text
  treeDigest : Option Text
deriving DecidableEq

inductive Action where
  | write
  | upload
  | createFolder
  | rename
  | move
  | copy
  | trash
  | restore
  | delete
  | chmod
  | archive
  | extract
  | readText
  | download
  | read
deriving DecidableEq

inductive ErrorKind where
  | revisionConflict
  | validationError
  | permissionDenied
  | policyDenied
  | featureDisabled
  | notFound
  | invalidPath
  | alreadyExists
  | invalidTarget
  | crossDeviceMove
  | fileTooLarge
  | diskFull
  | unsupportedBinaryFile
  | invalidTextEncoding
  | symlinkLoop
  | nameTooLong
  | readOnlyFilesystem
  | rateLimited
  | protocolError
  | notImplemented
  | internalError
deriving DecidableEq

inductive OperationStatus where
  | pending
  | success
  | failed
  | unknown
deriving DecidableEq

structure OperationRecord where
  version : Nat
  id : Uuid
  requestId : Nat
  accountId : Uuid
  generation : Nat
  createdAt : Nat
  updatedAt : Nat
  action : Action
  rootId : RootId
  sourcePath : RelativePath
  targetPath : Option RelativePath
  requestedMode : Option Nat
  oldMode : Option Nat
  newMode : Option Nat
  before : Option FileState
  after : Option FileState
  status : OperationStatus
  errorCode : Option ErrorKind
  bytesRead : Nat
  bytesWritten : Nat
  rangeNextOffset : Option Nat
  logReserveBytes : Nat
  logStorage : Option Text
  undoEpoch : Option Uuid
  undoStatus : Option OperationStatus
  undoErrorCode : Option ErrorKind
  stagingPath : Option RelativePath
  trashGcStatus : Option Text
  stagingGcStatus : Option Text
deriving DecidableEq

/-- `operation_v1:{account}:{created}:{id}`. -/
structure OperationKey where
  accountId : Uuid
  createdAt : Nat
  id : Uuid
deriving DecidableEq

def OperationRecord.key (record : OperationRecord) : OperationKey :=
  ⟨record.accountId, record.createdAt, record.id⟩

/-! ## The store -/

/-- One state of the database. -/
structure Store where
  accounts : Table Uuid AccountRow
  poolLimit : Nat
  adminBudgets : Table Uuid Nat
  sessionGrants : Table Uuid GrantRow
  enrollment : Table Text EnrollmentRow
  loginLimits : Table (LimitScope × Text) LimitRow
  panelScope : Table Uuid Bool
  passwordChangeRequired : Table Uuid Unit
  adminOwnQuota : Table Uuid Nat
  virtualCreate : Table IntentKey Intent
  virtualQuotaSync : Table Uuid Unit
  virtualUidRetired : Table Nat Nat
  virtualPurgeIntent : Table Uuid (Nat × Text)
  virtualPurged : Table Uuid (Nat × Nat)
  virtualUidCursor : Option Nat
  accountPolicy : Table Uuid UserRules
  operations : Register OperationKey OperationRecord OperationRecord.key
  trashExpiry : Table (Uuid × Uuid) OperationRecord
  stagingExpiry : Table (Uuid × Uuid) OperationRecord
  undoEpoch : Option Uuid
  undoPreferences : Table Uuid Nat
  dummyPasswordHash : Text

/-- The database `initialize_schema` leaves behind. -/
def Store.initial (dummyPasswordHash : Text) : Store where
  accounts := .empty
  poolLimit := 0
  adminBudgets := .empty
  sessionGrants := .empty
  enrollment := .empty
  loginLimits := .empty
  panelScope := .empty
  passwordChangeRequired := .empty
  adminOwnQuota := .empty
  virtualCreate := .empty
  virtualQuotaSync := .empty
  virtualUidRetired := .empty
  virtualPurgeIntent := .empty
  virtualPurged := .empty
  virtualUidCursor := none
  accountPolicy := .empty
  operations := .empty
  trashExpiry := .empty
  stagingExpiry := .empty
  undoEpoch := none
  undoPreferences := .empty
  dummyPasswordHash := dummyPasswordHash

end TealDrive
