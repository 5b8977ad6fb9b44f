import TealDrive.Policy.Restrict
import TealDrive.Wire.Frame

namespace TealDrive

open Outcome

/-!
# The handshake of a WebSocket

The server greets with its limits, the client answers with limits of its own that
must not be larger, and the server announces what holds from then on.  There are
two ways in.  A socket that is still authenticating checks the answer against the
configuration.  A socket of an existing session checks it against the protocol its
connection selected earlier; a fresh connection selected none.
-/

def tdrvProtocolVersion : Nat := 1

structure AuthenticationCapabilities where
  webPassword : Bool
  passwordChange : Bool
  selfRevoke : Bool
  accountManagement : Bool
  accountPagination : Bool
  auditHistory : Bool
  undo : Bool
  linuxApproval : Bool
  policyManagement : Bool
  virtualAccounts : Bool
  virtualDelete : Bool
  enrollment : Bool
  selfRegistration : Bool
deriving DecidableEq

structure ServerHelloPayload where
  uploadResumeSeconds : Nat
  authentication : AuthenticationCapabilities
  protocolVersion : Nat
  serverName : Text
  selectedEncoding : Option Encoding
  supportedEncodings : List Encoding
  supportedCompressions : List Compression
  maxFrameSize : Nat
  maxControlPayloadSize : Nat
  maxChunkSize : Nat
  featureFlags : FeatureFlags

structure ClientHelloPayload where
  protocolVersion : Nat
  supportedEncodings : List Encoding
  supportedCompressions : List Compression
  maxFrameSize : Nat
  maxControlPayloadSize : Nat
  maxChunkSize : Nat
  featureFlags : FeatureFlags

structure ProtocolReadyPayload where
  protocolVersion : Nat
  selectedEncoding : Encoding
  selectedCompression : Compression
  limits : Limits

structure WsSelectedProtocol where
  protocolVersion : Nat
  selectedEncoding : Encoding
  selectedCompression : Compression
  effectiveLimits : Limits

def serverSupportedCompressions : List Compression := [.none]

/-- The payload of `create_server_hello_frame`. -/
def createServerHello (config : AppConfig) : ServerHelloPayload where
  uploadResumeSeconds := config.systemStorage.uploadResumeSeconds
  authentication :=
    { webPassword := config.webAccounts.enabled
      passwordChange := config.webAccounts.enabled
      selfRevoke := config.webAccounts.enabled
      accountManagement := config.webAccounts.enabled
      accountPagination := config.webAccounts.enabled
      auditHistory := config.webAccounts.enabled && config.journal.enabled
      undo := config.webAccounts.enabled && config.journal.enabled
      linuxApproval := config.webAccounts.enabled
      policyManagement := config.webAccounts.enabled
      virtualAccounts := config.webAccounts.enabled && config.virtualAccounts.enabled &&
        config.homeTemplate.isSome
      virtualDelete := config.webAccounts.enabled && config.virtualAccounts.enabled &&
        config.virtualAccounts.allowAdminDelete
      enrollment := config.webAccounts.enabled
      selfRegistration := config.webAccounts.enabled && config.webAccounts.selfRegistration }
  protocolVersion := tdrvProtocolVersion
  serverName := "TealDrive".toList
  selectedEncoding := some .messagePack
  supportedEncodings := [.messagePack, .rawBinary]
  supportedCompressions := serverSupportedCompressions
  maxFrameSize := config.limits.maxFramePayload
  maxControlPayloadSize := config.limits.maxControlPayload
  maxChunkSize := config.limits.maxChunkSize
  featureFlags := config.features

def ClientHelloPayload.validate (payload : ClientHelloPayload) (limits : Limits) :
    Except TealDriveError Unit :=
  refuse (decide (payload.maxFrameSize > limits.maxFramePayload) ||
    decide (payload.maxControlPayloadSize > limits.maxControlPayload) ||
    decide (payload.maxChunkSize > limits.maxChunkSize)) .validation

def selectCompression (client : List Compression) : Except TealDriveError Compression :=
  if client.contains .none then .ok .none else .error .invalidCompression

def validateClientHello (payload : ClientHelloPayload) (serverLimits : Limits) :
    Except TealDriveError WsSelectedProtocol := do
  refuse (payload.protocolVersion != tdrvProtocolVersion) .unsupportedVersion
  refuse (!payload.supportedEncodings.contains .messagePack) .invalidEncoding
  payload.validate serverLimits
  let selectedCompression ← selectCompression payload.supportedCompressions
  return ⟨tdrvProtocolVersion, .messagePack, selectedCompression, serverLimits⟩

/-- The payload of `create_protocol_ready_frame`. -/
def createProtocolReady (selected : WsSelectedProtocol) : ProtocolReadyPayload where
  protocolVersion := tdrvProtocolVersion
  selectedEncoding := selected.selectedEncoding
  selectedCompression := selected.selectedCompression
  limits := selected.effectiveLimits

/-! ## The two ways in -/

/-- The part of a connection that the handshake reads and writes. -/
structure WsConnectionContext where
  protocolReady : Bool
  selectedProtocol : Option WsSelectedProtocol

/-- `context_from_session`. -/
def WsConnectionContext.fresh : WsConnectionContext := ⟨false, none⟩

def applyProtocolReady (selected : WsSelectedProtocol) : WsConnectionContext :=
  ⟨true, some selected⟩

def handleClientHello (context : WsConnectionContext) (payload : ClientHelloPayload) :
    Except TealDriveError (ProtocolReadyPayload × WsConnectionContext) := do
  let limits := (context.selectedProtocol.map (fun selected => selected.effectiveLimits)).getD
    Limits.standard
  let selected ← validateClientHello payload limits
  return (createProtocolReady selected, applyProtocolReady selected)

/-- The answer on the upgraded socket of a session. -/
def sessionReady (payload : ClientHelloPayload) : Except TealDriveError ProtocolReadyPayload :=
  (handleClientHello .fresh payload).map Prod.fst

/-- The answer of `authenticate_socket` to its first `ClientHello`. -/
def authenticatingReady (config : AppConfig) (payload : ClientHelloPayload) :
    Except TealDriveError ProtocolReadyPayload :=
  (validateClientHello payload config.limits).map createProtocolReady

/-! ## What a hello needs -/

/-- The demands of `validate_client_hello`. -/
structure HelloFits (payload : ClientHelloPayload) (limits : Limits) : Prop where
  version : payload.protocolVersion = tdrvProtocolVersion
  encoding : .messagePack ∈ payload.supportedEncodings
  compression : .none ∈ payload.supportedCompressions
  frame : payload.maxFrameSize ≤ limits.maxFramePayload
  control : payload.maxControlPayloadSize ≤ limits.maxControlPayload
  chunk : payload.maxChunkSize ≤ limits.maxChunkSize

theorem validateClientHello_iff {payload : ClientHelloPayload} {limits : Limits}
    {selected : WsSelectedProtocol} :
    validateClientHello payload limits = .ok selected ↔
      HelloFits payload limits ∧ selected = ⟨tdrvProtocolVersion, .messagePack, .none, limits⟩ := by
  simp only [validateClientHello, ClientHelloPayload.validate, selectCompression, bind_eq_ok,
    refuse_eq_ok, pure_eq_ok, Bool.or_eq_false_iff, decide_eq_false_iff_not, Nat.not_lt,
    bne_eq_false_iff_eq, Bool.not_eq_false', List.contains_iff_mem]
  constructor
  · rintro ⟨_, version, _, encoding, _, ⟨⟨frame, control⟩, chunk⟩, compression, chosen, rfl⟩
    split at chosen
    · next listed =>
        cases chosen
        exact ⟨⟨version, encoding, listed, frame, control, chunk⟩, rfl⟩
    · cases chosen
  · rintro ⟨fits, rfl⟩
    exact ⟨⟨⟩, fits.version, ⟨⟩, fits.encoding, ⟨⟩, ⟨⟨fits.frame, fits.control⟩, fits.chunk⟩, .none,
      if_pos fits.compression, rfl⟩

/-- An accepted hello is answered with the limits it was checked against. -/
theorem ready_iff {payload : ClientHelloPayload} {limits : Limits} {ready : ProtocolReadyPayload} :
    (validateClientHello payload limits).map createProtocolReady = .ok ready ↔
      HelloFits payload limits ∧ ready = ⟨tdrvProtocolVersion, .messagePack, .none, limits⟩ := by
  cases outcome : validateClientHello payload limits with
  | error problem =>
      constructor
      · intro impossible
        cases impossible
      · rintro ⟨fits, _⟩
        rw [validateClientHello_iff.mpr ⟨fits, rfl⟩] at outcome
        cases outcome
  | ok selected =>
      rcases validateClientHello_iff.mp outcome with ⟨fits, rfl⟩
      constructor
      · intro same
        exact ⟨fits, (Except.ok.inj same).symm⟩
      · rintro ⟨_, rfl⟩
        rfl

theorem sessionReady_eq (payload : ClientHelloPayload) :
    sessionReady payload =
      (validateClientHello payload Limits.standard).map createProtocolReady := by
  unfold sessionReady handleClientHello WsConnectionContext.fresh
  dsimp only [Option.map_none, Option.getD_none]
  cases validateClientHello payload Limits.standard with
  | error problem => rfl
  | ok selected => rfl

/-! ## The two ways compared -/

/-- The hello that names the limits the server greeted with. -/
def echo (hello : ServerHelloPayload) : ClientHelloPayload where
  protocolVersion := hello.protocolVersion
  supportedEncodings := hello.supportedEncodings
  supportedCompressions := hello.supportedCompressions
  maxFrameSize := hello.maxFrameSize
  maxControlPayloadSize := hello.maxControlPayloadSize
  maxChunkSize := hello.maxChunkSize
  featureFlags := hello.featureFlags

/-- Both ways accept the same hellos and announce the configured limits, and an
echo is accepted. -/
structure SameProtocol (config : AppConfig) : Prop where
  accept : forall payload,
    (sessionReady payload).isOk = true ↔ (authenticatingReady config payload).isOk = true
  session : forall payload ready, sessionReady payload = .ok ready -> ready.limits = config.limits
  authenticating : forall payload ready,
    authenticatingReady config payload = .ok ready -> ready.limits = config.limits
  sessionEcho : (sessionReady (echo (createServerHello config))).isOk = true
  authenticatingEcho :
    (authenticatingReady config (echo (createServerHello config))).isOk = true

theorem echo_fits (config : AppConfig) : HelloFits (echo (createServerHello config)) config.limits where
  version := rfl
  encoding := List.mem_cons_self
  compression := List.mem_cons_self
  frame := Nat.le_refl _
  control := Nat.le_refl _
  chunk := Nat.le_refl _

/-- A hello without demands fits any limits. -/
theorem modest_fits (config : AppConfig) (limits : Limits) :
    HelloFits { echo (createServerHello config) with
      maxFrameSize := 0, maxControlPayloadSize := 0, maxChunkSize := 0 } limits where
  version := rfl
  encoding := List.mem_cons_self
  compression := List.mem_cons_self
  frame := Nat.zero_le _
  control := Nat.zero_le _
  chunk := Nat.zero_le _

/-- The two ways to a session speak one protocol exactly when the limits are not
configured: a client with a session is told the default ones, whatever the
configuration says. -/
theorem sameProtocol_iff (config : AppConfig) :
    SameProtocol config ↔ config.limits = Limits.standard := by
  constructor
  · intro same
    have answered := ready_iff.mpr ⟨modest_fits config Limits.standard, rfl⟩
    rw [← sessionReady_eq] at answered
    exact (same.session _ _ answered).symm
  · intro configured
    have alike : forall payload, sessionReady payload = authenticatingReady config payload := by
      intro payload
      rw [sessionReady_eq, authenticatingReady, configured]
    have echoed : (authenticatingReady config (echo (createServerHello config))).isOk = true := by
      rw [authenticatingReady, ready_iff.mpr ⟨echo_fits config, rfl⟩]
      rfl
    have announced : forall payload ready, authenticatingReady config payload = .ok ready ->
        ready.limits = config.limits := by
      intro payload ready answered
      rw [(ready_iff.mp answered).2]
    constructor
    case accept =>
      intro payload
      rw [alike]
    case session =>
      intro payload ready answered
      rw [alike] at answered
      exact announced payload ready answered
    case authenticating => exact announced
    case sessionEcho =>
      rw [alike]
      exact echoed
    case authenticatingEcho => exact echoed

/-- The default configuration with larger control payloads. -/
def AppConfig.roomy : AppConfig :=
  { AppConfig.standard with
    limits := { Limits.standard with maxControlPayload := 512 * 1024 } }

theorem sameProtocol_roomy :
    AppConfig.roomy.validate .loopbackOnly = .ok () ∧
      (authenticatingReady .roomy (echo (createServerHello .roomy))).isOk = true ∧
      (sessionReady (echo (createServerHello .roomy))).isOk = false ∧
      ¬ SameProtocol .roomy := by
  have refused : (sessionReady (echo (createServerHello .roomy))).isOk = false := by decide
  refine ⟨by decide, by decide, refused, ?_⟩
  intro same
  exact absurd (refused.symm.trans same.sessionEcho) Bool.false_ne_true

end TealDrive
