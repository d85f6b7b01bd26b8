import Mathlib.Data.List.Infix
import EgoBridge.Lib.Utf8

/-!
# Protocol.Types

The records the two programs exchange, the errors they share, and the checks a record makes on
its own fields.

A Rust `usize` is a `Nat` here. It is bounded by 2^64 where a value is read from the wire.
-/

namespace EgoBridge
namespace Protocol

def PROTOCOL_VERSION : String := "ego-browser-bridge-v1"
def INNER_PROTOCOL_VERSION : String := "ego-browser-bridge-v1-inner"
def REMOTE_PLATFORM : String := "linux"
def LOCAL_PLATFORM : String := "macos"
def MAX_SCRIPT_BYTES : Nat := 1024 * 1024
def MAX_STDOUT_BYTES : Nat := 4 * 1024 * 1024
def MAX_STDERR_BYTES : Nat := 1024 * 1024
def MAX_ARTIFACT_BYTES : Nat := 12 * 1024 * 1024
def MAX_EXECUTE_TIMEOUT_MS : UInt64 := 120000
def KEY_WRAP_BYTES : Nat := 32 + 12 + 32 + 16

/-- A 32-byte key. -/
@[ext] structure Key where
  bytes : Bytes
  length_eq : bytes.length = 32
  deriving DecidableEq

theorem ones_length : (List.replicate 32 (1 : UInt8)).length = 32 := rfl

inductive OuterMessageType where
  | execute
  | executeResult
  | hello
  | renew
  | cancel
  deriving DecidableEq, Repr

inductive Direction where
  | request
  | response
  deriving DecidableEq, Repr

inductive InnerMessageType where
  | execute
  | executeResult
  | cancel
  | error
  | doctor
  | reload
  deriving DecidableEq, Repr

inductive ExecutionStatus where
  | completed
  | scriptError
  | timeout
  | cancelled
  | bridgeUnavailable
  | egoRuntimeUnavailable
  | leaseExpired
  | bindingRevoked
  | protocolError
  | artifactError
  | concurrencyConflict
  | leaseRenewalRequired
  | unknownResult
  deriving DecidableEq, Repr

inductive ConcurrencyMode where
  | taskSpaceTab
  | taskSpace
  | binding
  deriving DecidableEq, Repr

inductive ReleaseProfile where
  | logicTest
  | developmentLocal
  | communityLocalTrust
  | developerId
  deriving DecidableEq, Repr

inductive CredentialProfile where
  | communityFile
  | keychainAccessGroup
  deriving DecidableEq, Repr

/-- Errors shared by protocol consumers. -/
inductive ProtocolError where
  | invalidOuter (reason : String)
  | invalidInner (reason : String)
  | capabilityMismatch (reason : String)
  | frameTooLarge
  | scriptTooLarge
  | duplicateJsonKey (key : String)
  | invalidJson (reason : String)
  | invalidEncoding
  | authenticationFailed
  | replay
  | leaseExpired
  | leaseRenewalRequired
  | bindingRevoked
  | concurrencyConflict
  | limitExceeded (name : String)
  | io (reason : String)
  deriving DecidableEq, Repr

/-- `Display` for `ProtocolError`. -/
def ProtocolError.message : ProtocolError → String
  | .invalidOuter reason => "invalid outer envelope: " ++ reason
  | .invalidInner reason => "invalid inner payload: " ++ reason
  | .capabilityMismatch reason => "capability mismatch: " ++ reason
  | .frameTooLarge => "wire frame is too large"
  | .scriptTooLarge => "script is too large"
  | .duplicateJsonKey key => "duplicate JSON key: " ++ key
  | .invalidJson reason => "invalid JSON: " ++ reason
  | .invalidEncoding => "invalid base64 encoding"
  | .authenticationFailed => "payload authentication failed"
  | .replay => "replayed request"
  | .leaseExpired => "lease expired"
  | .leaseRenewalRequired => "lease renewal required"
  | .bindingRevoked => "binding revoked"
  | .concurrencyConflict => "concurrency conflict"
  | .limitExceeded name => "limit exceeded: " ++ name
  | .io reason => "I/O error: " ++ reason

theorem bind_ok {ε α β : Type} {x : Except ε α} {f : α → Except ε β} {b : β}
    (h : (x >>= f) = .ok b) : ∃ a, x = .ok a ∧ f a = .ok b := by
  cases x with
  | error e => cases h
  | ok a => exact ⟨a, rfl, h⟩

theorem ok_bind {ε α β : Type} (a : α) (f : α → Except ε β) : ((.ok a : Except ε α) >>= f) = f a :=
  rfl

/-- A check passes where its condition fails and the rest passes. -/
theorem ite_error_ok {ε α : Type} {p : Prop} [Decidable p] {e : ε} {x : Except ε α} {a : α} :
    (if p then .error e else x) = .ok a ↔ ¬ p ∧ x = .ok a := by
  by_cases h : p
  · simp [h]
  · simp [h]

/-- Values visible to the server in an outer envelope. -/
structure OuterEnvelope where
  protocol : String
  channel : String
  relayBindingKind : String
  messageType : OuterMessageType
  requestId : String
  bindingId : String
  generation : UInt64
  sequence : UInt64
  direction : Direction
  payloadBytes : Nat
  nonce : String
  ciphertext : String
  authTag : String
  keyWrap : String
  deriving DecidableEq

structure InnerExecuteRequest where
  protocol : String
  messageType : InnerMessageType
  script : String
  timeoutMs : UInt64
  cwdLabel : String
  defaultTaskSpace : String
  concurrencyMode : ConcurrencyMode
  taskSpaceScope : Option String
  tabScope : Option String
  allowlistRevision : UInt64
  learningBundleDigest : Option String
  deriving DecidableEq

structure InnerCancelRequest where
  protocol : String
  messageType : InnerMessageType
  requestId : String
  sequence : UInt64
  deriving DecidableEq

structure ArtifactDescriptor where
  artifactId : String
  mediaType : String
  sizeBytes : UInt64
  width : UInt32
  height : UInt32
  contentB64 : String
  deriving DecidableEq

structure InnerExecuteResponse where
  protocol : String
  messageType : InnerMessageType
  requestId : String
  sequence : UInt64
  status : ExecutionStatus
  exitCode : Option Int32
  stdout : String
  stderr : String
  artifacts : List ArtifactDescriptor
  durationMs : UInt64
  deriving DecidableEq

/-- Capabilities proven by a local bridge. -/
structure BridgeCapability where
  bridgeProtocolVersion : String
  remoteWrapperVersion : String
  localEgoBrowserRuntimeVersion : String
  egoLiteRuntimeVersion : String
  skillVersion : String
  releaseProfile : ReleaseProfile
  signerCertificateSha256 : String
  credentialProfile : CredentialProfile
  allowlistRevision : UInt64
  allowlistRootsDigest : Option String
  learningBundleDigest : Option String
  maxParallelRequests : Nat
  maxScriptBytes : Nat
  maxExecuteTimeoutMs : UInt64
  supportedConcurrency : List ConcurrencyMode
  capabilities : List String
  remotePlatform : String
  localPlatform : String
  deriving DecidableEq

/-- One-time broker permit. -/
structure RequestPermit where
  bindingId : String
  generation : UInt64
  requestId : String
  sequence : UInt64
  expiresAtUnixMs : UInt64
  maxPayloadBytes : Nat
  maxScriptBytes : Nat
  defaultTaskSpace : String
  allowlistRevision : UInt64
  learningBundleDigest : Option String
  concurrencyMode : ConcurrencyMode
  taskSpaceScope : Option String
  tabScope : Option String
  deriving DecidableEq

/-! ## Text -/

/-- No control byte. -/
def isTextByte (b : UInt8) : Bool := 0x20 ≤ b && b ≠ 0x7f

def validTextId (value : String) (maximum : Nat) : Bool :=
  !value.isEmpty && (utf8 value).length ≤ maximum && (utf8 value).all isTextByte

def isDedicatedByte (b : UInt8) : Bool :=
  (0x30 ≤ b && b ≤ 0x39) || (0x41 ≤ b && b ≤ 0x5a) || (0x61 ≤ b && b ≤ 0x7a) ||
    b = 0x2d || b = 0x5f || b = 0x3a

def dedicatedTag : Bytes := utf8 "agent-remote:"

/-- Whether a Task Space is the canonical per-tool-session workflow name. -/
def isDedicatedTaskSpace (value : String) : Bool :=
  dedicatedTag.isPrefixOf (utf8 value) &&
    (let toolSessionId := (utf8 value).drop dedicatedTag.length
     !toolSessionId.isEmpty && (utf8 value).length ≤ 256 && toolSessionId.all isDedicatedByte)

/-- `str::contains` for a text, over characters. -/
def containsText (text value : String) : Bool := decide (text.toList <:+: value.toList)

def isHexByte (b : UInt8) : Bool := (0x30 ≤ b && b ≤ 0x39) || (0x61 ≤ b && b ≤ 0x66)

def validSha256Digest (value : String) : Bool :=
  (utf8 value).length = 71 && (utf8 "sha256:").isPrefixOf (utf8 value) &&
    ((utf8 value).drop 7).all isHexByte

def hasDuplicates (values : List String) : Bool := !decide values.Nodup

/-! ## Validation -/

/-- Validate immutable platform and protocol claims. -/
def BridgeCapability.validate (c : BridgeCapability) : Except ProtocolError Unit :=
  if c.bridgeProtocolVersion ≠ PROTOCOL_VERSION ∨ c.remotePlatform ≠ REMOTE_PLATFORM ∨
      c.localPlatform ≠ LOCAL_PLATFORM then
    .error (.capabilityMismatch "platform or protocol")
  else if c.allowlistRevision = 0 then .error (.capabilityMismatch "allowlist_revision")
  else if c.maxParallelRequests = 0 ∨ 4 < c.maxParallelRequests then
    .error (.capabilityMismatch "max_parallel_requests")
  else if c.maxScriptBytes = 0 ∨ MAX_SCRIPT_BYTES < c.maxScriptBytes then
    .error (.capabilityMismatch "max_script_bytes")
  else if c.maxExecuteTimeoutMs = 0 ∨ MAX_EXECUTE_TIMEOUT_MS < c.maxExecuteTimeoutMs then
    .error (.capabilityMismatch "max_execute_timeout_ms")
  else if ¬ validTextId c.remoteWrapperVersion 64 ∨
      ¬ validTextId c.localEgoBrowserRuntimeVersion 64 ∨
      ¬ validTextId c.egoLiteRuntimeVersion 64 ∨ ¬ validTextId c.skillVersion 64 ∨
      ¬ validTextId c.signerCertificateSha256 128 ∨ c.supportedConcurrency.isEmpty ∨
      3 < c.supportedConcurrency.length then
    .error (.capabilityMismatch "capability metadata")
  else if c.capabilities.any (fun capability => capability.isEmpty) ∨
      c.capabilities.any (fun capability => !validTextId capability 128) ∨
      hasDuplicates c.capabilities ∨ "ego_browser_script_execute_v1" ∉ c.capabilities then
    .error (.capabilityMismatch "script capability")
  else
    let hasAllowlist := c.capabilities.contains "ego_browser_file_allowlist_v1"
    let hasLearning := c.capabilities.contains "ego_browser_site_learning_v1"
    if hasAllowlist ≠ c.allowlistRootsDigest.isSome ∨
        hasLearning ≠ c.learningBundleDigest.isSome ∨
        c.allowlistRootsDigest.any (fun value => !validSha256Digest value) ∨
        c.learningBundleDigest.any (fun value => !validSha256Digest value) then
      .error (.capabilityMismatch "optional policy capability")
    else .ok ()

/-- Validate the exact request identity targeted by a cancellation. -/
def InnerCancelRequest.validate (r : InnerCancelRequest) : Except ProtocolError Unit :=
  if r.protocol ≠ INNER_PROTOCOL_VERSION ∨ r.messageType ≠ .cancel then
    .error (.invalidInner "cancel protocol or type")
  else if ¬ validTextId r.requestId 128 ∨ r.sequence = 0 then
    .error (.invalidInner "cancel identity")
  else .ok ()

/-- Validate an execute request against the advertised capability. -/
def InnerExecuteRequest.validate (r : InnerExecuteRequest) (capability : BridgeCapability) :
    Except ProtocolError Unit :=
  if r.protocol ≠ INNER_PROTOCOL_VERSION ∨ r.messageType ≠ .execute then
    .error (.invalidInner "protocol or type")
  else if r.script.isEmpty ∨ capability.maxScriptBytes < (utf8 r.script).length then
    .error .scriptTooLarge
  else if r.timeoutMs = 0 ∨ capability.maxExecuteTimeoutMs < r.timeoutMs then
    .error (.invalidInner "timeout_ms")
  else if ¬ validTextId r.cwdLabel 128 ∨ containsText ".." r.cwdLabel then
    .error (.invalidInner "cwd_label")
  else if ¬ isDedicatedTaskSpace r.defaultTaskSpace then
    .error (.invalidInner "default_task_space")
  else if r.allowlistRevision ≠ capability.allowlistRevision then
    .error (.capabilityMismatch "allowlist_revision")
  else if r.learningBundleDigest ≠ capability.learningBundleDigest then
    .error (.capabilityMismatch "learning_bundle_digest")
  else if r.concurrencyMode ∉ capability.supportedConcurrency then
    .error (.capabilityMismatch "concurrency_mode")
  else if r.concurrencyMode = .binding then .ok ()
  else
    let scope := r.taskSpaceScope.getD ""
    if ¬ validTextId scope 256 ∨ containsText "*" scope then
      .error (.invalidInner "task_space_scope")
    else if scope ≠ r.defaultTaskSpace then
      .error (.invalidInner "dedicated task space scope")
    else
      let tab := r.tabScope.getD ""
      if r.concurrencyMode = .taskSpaceTab ∧ (¬ validTextId tab 256 ∨ containsText "*" tab) then
        .error (.invalidInner "tab_scope")
      else .ok ()

end Protocol
end EgoBridge
