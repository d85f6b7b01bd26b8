import EgoBridge.Device.Api

/-!
# Device.Registration

Enrollment and identity rotation: the answer of the server, `ensure` and `device_rotate`.

* `credentialFromRegistrationResponseStrict_ok` — what an accepted answer says.
* `ensure`        — every state it leaves behind is one the next run starts from.
* `deviceRotate`  — the prepared key and the operation key are stored before the request.
* `synchronizeRegisteredPolicy` — the policy change of a registered device.
-/

namespace EgoBridge
namespace Device

open Protocol Json Crash

variable (P : Platform)

/-! ## Error codes -/

def apiLogCode (code : String) : String :=
  let normalized := toAsciiLowercase code
  if ["login_required", "common_unauthorized"].contains normalized then "login_required"
  else if normalized = "server_profile_required" then "server_profile_required"
  else if ["device_conflict", "ego_browser_device_conflict"].contains normalized then
    "device_conflict"
  else if ["device_generation_conflict", "ego_browser_generation_mismatch",
      "ego_browser_generation_invalid", "ego_browser_generation_exhausted"].contains normalized then
    "device_generation_conflict"
  else if ["device_not_found", "ego_browser_device_not_found"].contains normalized then
    "device_not_found"
  else if ["device_revoked", "ego_browser_credential_revoked",
      "ego_browser_credential_expired"].contains normalized then "device_revoked"
  else if ["admission_disabled", "ego_browser_enrollment_disabled",
      "ego_browser_enrollment_admission_disabled",
      "ego_browser_execution_admission_disabled"].contains normalized then "admission_disabled"
  else if ["compatibility_mismatch", "ego_browser_profile_mismatch", "ego_browser_signer_mismatch",
      "ego_browser_version_mismatch", "ego_browser_capability_mismatch",
      "ego_browser_runtime_unsupported", "ego_browser_encryption_key_mismatch",
      "ego_browser_encryption_key_required",
      "ego_browser_credential_profile_unsupported"].contains normalized then
    "compatibility_mismatch"
  else if normalized = "server_unreachable" then "server_unreachable"
  else if normalized = "local_lock_busy" then "local_lock_busy"
  else "control_plane_error"

/-- A finite code suitable for persistent operational logs. -/
def CredentialError.logCode : CredentialError → String
  | .missing => "credential_missing"
  | .invalidPath => "credential_invalid_path"
  | .unsafePermissions => "credential_unsafe_permissions"
  | .malformed => "credential_malformed"
  | .policyInvalid => "policy_invalid"
  | .policyConflict => "policy_conflict"
  | .rotationConflict => "rotation_conflict"
  | .compatibilityMismatch => "compatibility_mismatch"
  | .pendingExpired => "pending_expired"
  | .identityOriginConflict => "identity_origin_conflict"
  | .unsupportedCredentialProfile => "compatibility_mismatch"
  | .localLockBusy => "local_lock_busy"
  | .learningBundleInvalid => "learning_bundle_invalid"
  | .tooLarge => "credential_too_large"
  | .network => "control_plane_error"
  | .api _ => "control_plane_error"
  | .apiCode _ code => apiLogCode code
  | .io => "io_error"

def Failure.logCode : Failure → String
  | .credential e => e.logCode
  | .message _ => "operation_failed"

/-! ## The server's answer -/

def stringArray (v : Json) : Option (List String) :=
  match v with
  | .arr vs => vs.mapM asStr
  | _ => none

def stringArrayMembersMatch (actual expected : Option Json) : Bool :=
  match actual.bind stringArray, expected.bind stringArray with
  | some actual, some expected => sortTexts actual = sortTexts expected
  | _, _ => false

def policyFields : List String :=
  ["platform", "bridge_protocol_version", "bridge_version", "local_ego_browser_runtime_version",
    "ego_lite_runtime_version", "skill_version", "allowlist_revision", "allowlist_roots_digest",
    "learning_bundle_digest", "policy_digest", "capability_digest"]

def registrationPolicyMatches (data submitted : Json) : Bool :=
  policyFields.all (fun field =>
      (get data field).isSome && (get submitted field).isSome &&
        get data field = get submitted field) &&
    stringArrayMembersMatch (get data "capabilities") (get submitted "capabilities")

/-- The identity, the profile and the policy of the device data are those submitted. -/
def exactIdentity (data submitted : Json) (serverUrl : String) (identity : DeviceIdentity)
    (signerCertificateSha256 deviceId publicKey : String) (generation : UInt64) : Bool :=
  deviceId = identity.deviceId && generation = identity.generation &&
    (get data "status").bind asStr = some "active" && publicKey = identity.publicKeyB64 P &&
    (get data "id").all (fun v => asStr v = some identity.deviceId) &&
    (get data "generation").all (fun v => asU64 v = some identity.generation) &&
    (get data "public_key").all (fun v => asStr v = some (identity.publicKeyB64 P)) &&
    (get data "encryption_public_key").bind asStr = some (identity.encryptionPublicKeyB64 P) &&
    (get data "release_profile").bind asStr = some identity.releaseProfile &&
    (get data "credential_profile").bind asStr = some identity.credentialProfile &&
    (get data "signer_certificate_sha256").bind asStr = some signerCertificateSha256 &&
    (get data "server_origin").bind asStr = some serverUrl &&
    registrationPolicyMatches data submitted

/-- The issued credential is one of this identity. -/
def issuedMatches (issued : Json) (identity : DeviceIdentity) (revision : UInt64) : Bool :=
  (get issued "ego_browser_device_id").bind asStr = some identity.deviceId &&
    (get issued "credential_profile").bind asStr = some identity.credentialProfile &&
    (get issued "device_generation").bind asU64 = some identity.generation &&
    (get issued "generation").all (fun v => asU64 v = some identity.generation) &&
    (get issued "revision").all (fun v => asU64 v = some revision) &&
    (get issued "token_type").bind asStr = some "bearer" &&
    (get issued "credential_scope").bind asStr = some "device"

/-- `u64::abs_diff`. -/
def absDiff (m n : UInt64) : Nat := max m.toNat n.toNat - min m.toNat n.toNat

def parseCredentialExpiry (issued : Json) (expiresIn nowUnix : UInt64) :
    Except Failure UInt64 :=
  match (get issued "credential_expires_at").bind asStr with
  | none => .error (.message "registration response did not include credential_expires_at")
  | some explicit =>
    if ((get issued "expires_at").bind asStr).any (· ≠ explicit) then
      .error (.message "credential expiry fields disagree")
    else
      match P.parseRfc3339 explicit with
      | none => .error (.message "registration response credential expiry is invalid")
      | some timestamp =>
        if timestamp ≤ 0 then
          .error (.message "registration response credential expiry is invalid")
        else if UInt64.ofInt timestamp ≤ nowUnix then
          .error (.message "registration response credential is already expired")
        else if 5 < absDiff (UInt64.ofInt timestamp) (saturatingAdd nowUnix expiresIn) then
          .error (.message "registration response credential expiry does not match expires_in")
        else .ok (UInt64.ofInt timestamp)

/-- A value the answer must have. -/
def present {α : Type} (value : Option α) (text : String) : Except Failure α :=
  match value with
  | some a => .ok a
  | none => .error (.message text)

theorem present_ok {α : Type} {value : Option α} {text : String} {a : α} :
    present value text = .ok a ↔ value = some a := by
  cases value with
  | none => simp [present]
  | some b => simp [present]

def asObject : Json → Option Json
  | .obj ms => some (.obj ms)
  | _ => none

def credentialFromIssued (issued : Json) (serverUrl : String) (identity : DeviceIdentity)
    (previousRevision : Option UInt64) (nowUnix : UInt64) :
    Except Failure CommunityCredential := do
  let revision ← present ((get issued "credential_revision").bind asU64)
    "registration response did not include a credential revision"
  if revision = 0 ∨ previousRevision.any (revision ≤ ·) then
    .error (.message "registration response did not advance the credential revision")
  else if ¬ issuedMatches issued identity revision then
    .error (.credential .compatibilityMismatch)
  else
    let expiresIn ← present (((get issued "expires_in").bind asU64).filter (0 < ·))
      "registration response did not include credential expiry"
    let expiresAtUnix ← parseCredentialExpiry P issued expiresIn nowUnix
    let token ← present ((get issued "access_token").bind asStr)
      "registration response did not include a credential token"
    let id ← present ((get issued "id").bind asStr)
      "registration response did not include a credential ID"
    .ok ⟨1, identity.deviceId, serverUrl, token, some id, identity.releaseProfile,
      identity.credentialProfile, expiresAtUnix, revision⟩

/-- Validates canonical ensure and rotate responses, including Server origin. -/
def credentialFromRegistrationResponseStrict (response : Json) (serverUrl : String)
    (identity : DeviceIdentity) (signerCertificateSha256 : String) (submitted : Json)
    (previousRevision : Option UInt64) (nowUnix : UInt64) :
    Except Failure CommunityCredential := do
  let data ← present ((get response "data").bind asObject)
    "registration response did not include device data"
  let deviceId ← present ((get data "device_id").bind asStr)
    "registration response did not include a device ID"
  let publicKey ← present ((get data "signing_public_key").bind asStr)
    "registration response did not include a signing public key"
  let generation ← present ((get data "device_generation").bind asU64)
    "registration response did not include a device generation"
  if ¬ exactIdentity P data submitted serverUrl identity signerCertificateSha256 deviceId publicKey
      generation then
    .error (.credential .compatibilityMismatch)
  else
    let issued ← present ((get data "credential").bind asObject)
      "registration response did not include an ego-browser credential"
    credentialFromIssued P issued serverUrl identity previousRevision nowUnix

theorem credentialFromIssued_ok {issued : Json} {serverUrl : String} {identity : DeviceIdentity}
    {previousRevision : Option UInt64} {nowUnix : UInt64} {c : CommunityCredential}
    (h : credentialFromIssued P issued serverUrl identity previousRevision nowUnix = .ok c) :
    c.deviceId = identity.deviceId ∧ c.serverUrl = serverUrl ∧
      c.releaseProfile = identity.releaseProfile ∧
      c.credentialProfile = identity.credentialProfile ∧
      ∀ previous, previousRevision = some previous → previous < c.revision := by
  obtain ⟨revision, -, h⟩ := bind_ok h
  obtain ⟨hrev, h⟩ := ite_error_ok.mp h
  obtain ⟨-, h⟩ := ite_error_ok.mp h
  obtain ⟨expiresIn, -, h⟩ := bind_ok h
  obtain ⟨expiresAtUnix, -, h⟩ := bind_ok h
  obtain ⟨token, -, h⟩ := bind_ok h
  obtain ⟨id, -, h⟩ := bind_ok h
  cases h
  refine ⟨rfl, rfl, rfl, rfl, ?_⟩
  rintro previous rfl
  simpa using (not_or.mp hrev).2

/-- An accepted answer's credential is one of the identity, newer than the one before. -/
theorem credentialFromRegistrationResponseStrict_ok {response submitted : Json}
    {serverUrl signer : String} {identity : DeviceIdentity} {previousRevision : Option UInt64}
    {nowUnix : UInt64} {c : CommunityCredential}
    (h : credentialFromRegistrationResponseStrict P response serverUrl identity signer submitted
      previousRevision nowUnix = .ok c) :
    c.deviceId = identity.deviceId ∧ c.serverUrl = serverUrl ∧
      c.releaseProfile = identity.releaseProfile ∧
      c.credentialProfile = identity.credentialProfile ∧
      ∀ previous, previousRevision = some previous → previous < c.revision := by
  obtain ⟨data, -, h⟩ := bind_ok h
  obtain ⟨deviceId, -, h⟩ := bind_ok h
  obtain ⟨publicKey, -, h⟩ := bind_ok h
  obtain ⟨generation, -, h⟩ := bind_ok h
  obtain ⟨-, h⟩ := ite_error_ok.mp h
  obtain ⟨issued, -, h⟩ := bind_ok h
  exact credentialFromIssued_ok P h

/-! ## The inputs of a registration -/

structure LocalRegistrationInputs where
  runtime : String
  policy : VerifiedLocalPolicy
  signerCertificateSha256 : String
  policyUpdate : Option PreparedPolicyUpdate
  deriving DecidableEq

/-- A policy whose bundle no longer verifies is moved to the bundle of the installed release. -/
def managedPolicy (build : Build) (runtime : String) :
    Probe (VerifiedLocalPolicy × Option PreparedPolicyUpdate) := do
  let executable : Option String ← ask .currentExe
  let release ← match executable with
    | none => pure none
    | some executable => installedReleaseDirectory build executable
  match release with
  | none => fail .compatibilityMismatch
  | some release =>
    beginPolicyUpdate
    mapLocalPolicyError (prepareManagedLearningBundleUpdate build release runtime)

def localRegistrationInputs (build : Build) (args : List String) (identity : DeviceIdentity) :
    Probe LocalRegistrationInputs := do
  let runtime ← orCompatibilityMismatch (probeRuntime build)
  let (policy, policyUpdate) ←
    match ← (loadPolicy (some build.supportedSkillVersion) (some runtime)).attempt with
    | .ok (_, policy) => pure (policy, none)
    | .error (.credential .learningBundleInvalid) => managedPolicy build runtime
    | .error e => mapLocalPolicyError (raise e)
  let signer ← orCompatibilityMismatch
    (signerCertificateSha256ForProfile build args (some identity.releaseProfile))
  pure ⟨runtime, policy, signer, policyUpdate⟩

/-! ## Ensure -/

def validatePendingIdentity (pending : PendingRegistration) (identity : DeviceIdentity) :
    Except CredentialError Unit :=
  if pending.deviceId ≠ identity.deviceId ∨ pending.deviceGeneration ≠ identity.generation ∨
      pending.releaseProfile ≠ identity.releaseProfile ∨
      pending.credentialProfile ≠ identity.credentialProfile ∨
      pending.signingPublicKeySha256 ≠ publicValueSha256 P (identity.publicKeyB64 P) ∨
      pending.encryptionPublicKeySha256 ≠ publicValueSha256 P (identity.encryptionPublicKeyB64 P) then
    .error .malformed
  else .ok ()

def validateRequestedOrigin (server : String) (credential : Option CommunityCredential)
    (metadata : Option StoredIdentityMetadata) : Except CredentialError Unit :=
  if credential.any (·.serverUrl ≠ server) ∨ metadata.any (·.serverUrl ≠ server) then
    .error .identityOriginConflict
  else .ok ()

def validateRequestedIdentityContext (server releaseProfile credentialProfile : String)
    (credential : Option CommunityCredential) (metadata : Option StoredIdentityMetadata) :
    Except CredentialError Unit :=
  match validateRequestedOrigin server credential metadata with
  | .error e => .error e
  | .ok () =>
    if credential.any (fun c => c.releaseProfile ≠ releaseProfile ||
          c.credentialProfile ≠ credentialProfile) ∨
        metadata.any (fun m => m.releaseProfile ≠ releaseProfile ||
          m.credentialProfile ≠ credentialProfile) then
      .error .compatibilityMismatch
    else .ok ()

def credentialMatchesIdentity (credential : CommunityCredential) (identity : DeviceIdentity)
    (server : String) : Bool :=
  credential.deviceId = identity.deviceId && credential.serverUrl = server &&
    credential.releaseProfile = identity.releaseProfile &&
    credential.credentialProfile = identity.credentialProfile && 0 < credential.revision

def credentialIsFresh (credential : CommunityCredential) (nowUnix : UInt64) : Bool :=
  saturatingAdd nowUnix 300 < credential.expiresAtUnix

def validateReplayedRegistrationCredential (previous : Option CommunityCredential)
    (candidate : CommunityCredential) : Except CredentialError Unit :=
  match previous with
  | none => .ok ()
  | some previous =>
    if candidate.revision < previous.revision ∨
        (candidate.revision = previous.revision ∧ candidate ≠ previous) then
      .error .compatibilityMismatch
    else .ok ()

/-- `DeviceIdentity::generate`. -/
def generateIdentity (releaseProfile credentialProfile : String) : Probe DeviceIdentity := do
  pure ⟨← ask .deviceId, ← ask .signingKey, ← ask .encryptionKey, 1, releaseProfile,
    credentialProfile, false⟩

namespace Ensure

/-- The pending registration, if it is within its window or is to be re-enrolled. -/
def findPending (args : List String) : Command (Option PendingRegistration) := do
  match ← (loadPendingRegistration P).attempt with
  | .ok pending => pure (some pending)
  | .error (.credential .missing) => pure none
  | .error (.credential .pendingExpired) =>
    if hasOption args "--re-enroll" then
      pure (some (← lift ((← theStore).readPendingRegistration P)))
    else do
      -- Expiry requires explicit recovery, never a second identity.
      let _ ← (recordPendingRegistrationError P (some "pending_expired")).attempt
      fail .pendingExpired
  | .error e => raise e

def requestedServer (args : List String) (pending : Option PendingRegistration)
    (credential : Option CommunityCredential) (metadata : Option StoredIdentityMetadata) :
    Probe String := do
  let server ← liftText (option args "--server")
  match server <|> pending.map (·.serverUrl) <|> credential.map (·.serverUrl) <|>
      metadata.map (·.serverUrl) with
  | none => failText "--server is required for the first ego-browser ensure"
  | some server => lift (canonicalServerUrl P server)

def requestedReleaseProfile (args : List String) (credential : Option CommunityCredential)
    (metadata : Option StoredIdentityMetadata) : Probe String := do
  let profile ← orElse (← liftText (option args "--release-profile"))
    (env "EGO_BROWSER_RELEASE_PROFILE")
  pure ((profile <|> credential.map (·.releaseProfile) <|> metadata.map (·.releaseProfile)).getD
    COMMUNITY_PROFILE_ID)

def requestedCredentialProfile (args : List String) (metadata : Option StoredIdentityMetadata) :
    Probe String := do
  let profile ← orElse (← liftText (option args "--credential-profile"))
    (env "EGO_BROWSER_CREDENTIAL_PROFILE")
  pure ((profile <|> metadata.map (·.credentialProfile)).getD "community_file")

/-- The identity of what is stored, or a new one for an empty store. -/
def findIdentity (server releaseProfile credentialProfile : String)
    (pending : Option PendingRegistration) (credential : Option CommunityCredential)
    (metadata : Option StoredIdentityMetadata) : Command DeviceIdentity := do
  match pending, credential, metadata with
  | some pending, _, _ =>
    let identity ← loadIdentity pending.deviceId pending.releaseProfile pending.credentialProfile
    if pending.serverUrl ≠ server then fail .identityOriginConflict
    lift (validatePendingIdentity P pending identity)
    pure identity
  | none, some credential, _ =>
    loadIdentity credential.deviceId releaseProfile credential.credentialProfile
  | none, none, some metadata =>
    if metadata.serverUrl ≠ server then fail .identityOriginConflict
    loadIdentity metadata.deviceId metadata.releaseProfile metadata.credentialProfile
  | none, none, none =>
    -- Never overwrite a key whose Device ID and origin cannot be proven.
    if (← theStore).key.isSome then fail .malformed
    let identity ← generateIdentity releaseProfile credentialProfile
    saveIdentity identity
    pure identity

/-- Explicit recovery gets a new operation key after proving the retained identity. -/
def reEnroll (args : List String) (token : Option String)
    (server releaseProfile credentialProfile : String) (identity : DeviceIdentity)
    (pending : Option PendingRegistration) (credential : Option CommunityCredential)
    (metadata : Option StoredIdentityMetadata) : Command (Option PendingRegistration) := do
  match pending with
  | none => pure none
  | some value =>
    let isExpired ← value.isExpired (← now)
    if ¬ (isExpired ∨ (hasOption args "--re-enroll" ∧ value.enrollmentMode = "ensure")) then
      pure (some value)
    else do
      if ¬ hasOption args "--re-enroll" then fail .pendingExpired
      if token.isNone then failText "--token or --token-stdin is required for re-enrollment"
      if identity.releaseProfile ≠ releaseProfile ∨
          identity.credentialProfile ≠ credentialProfile then
        fail .compatibilityMismatch
      lift (validateRequestedIdentityContext server releaseProfile credentialProfile credential
        metadata)
      let idempotencyKey ← newIdempotencyKey
      let value := { value with
        enrollmentMode := "re_enroll", idempotencyKey, createdAtUnix := ← now,
        lastErrorCode := none }
      savePendingRegistration P value
      pure (some value)

def enrollmentMode (args : List String) (pending : Option PendingRegistration)
    (credential : Option CommunityCredential) (metadata : Option StoredIdentityMetadata) : String :=
  match pending with
  | some pending => pending.enrollmentMode
  | none =>
    if hasOption args "--re-enroll" then "re_enroll"
    else if credential.isSome ∨ metadata.isSome then "ensure"
    else "initial"

/-- The recovery state of an enrollment. -/
def registrationRecord (server mode : String) (identity : DeviceIdentity) (key : String)
    (createdAtUnix : UInt64) : PendingRegistration where
  version := 1
  deviceId := identity.deviceId
  deviceGeneration := identity.generation
  serverUrl := server
  releaseProfile := identity.releaseProfile
  credentialProfile := identity.credentialProfile
  enrollmentMode := mode
  signingPublicKeySha256 := publicValueSha256 P (identity.publicKeyB64 P)
  encryptionPublicKeySha256 := publicValueSha256 P (identity.encryptionPublicKeyB64 P)
  idempotencyKey := key
  createdAtUnix := createdAtUnix
  lastErrorCode := none

/-- The operation key: the stored one, or a new one that is stored first. -/
def operationKey (server mode : String) (identity : DeviceIdentity)
    (pending : Option PendingRegistration) : Command String := do
  match pending with
  | some pending =>
    lift (validatePendingIdentity P pending identity)
    pure pending.idempotencyKey
  | none =>
    let key ← newIdempotencyKey
    savePendingRegistration P (registrationRecord P server mode identity key (← now))
    pure key

/-- The exchange with the server; its failure is noted in the pending registration. -/
def exchange (server : String) (token : Option String) (registration : Registration)
    (key : String) : Command Json := do
  match token with
  | none => failText "--token or --token-stdin is required for an ego-browser ensure"
  | some token =>
    let api ← lift (withUserToken P server token registration.identity)
    match ← (api.ensureWithRetry P registration key).attempt with
    | .ok body => pure body
    | .error e => do
      let _ ← (recordPendingRegistrationError P (some e.logCode)).attempt
      raise e

/-- The answer's credential is stored, and what was prepared is committed. -/
def commit (server : String) (registration : Registration)
    (pending : Option PendingRegistration) (existing : Option CommunityCredential)
    (policyUpdate : Option PreparedPolicyUpdate) (body : Json) : Command Unit := do
  let policyCommitRecovery := pending.isSome && policyUpdate.isSome
  let previousRevision := if policyCommitRecovery then none else existing.map (·.revision)
  let nowUnix ← now
  match credentialFromRegistrationResponseStrict P body server registration.identity
      registration.signerCertificateSha256 (registrationPayload P registration) previousRevision
      nowUnix with
  | .error e => raise e
  | .ok credential =>
    if policyCommitRecovery then
      lift (validateReplayedRegistrationCredential existing credential)
    record (.issued credential)
    save P credential
    match policyUpdate with
    | none => pure ()
    | some update => commitPolicyUpdate update
    saveIdentityMetadata P registration.identity server
    clearPendingRegistration

/-- What follows once nothing stored is enough. -/
def register (build : Build) (args : List String) (server mode : String) (token : Option String)
    (identity : DeviceIdentity) (pending : Option PendingRegistration)
    (existing : Option CommunityCredential) (prepared : Option LocalRegistrationInputs) :
    Command Unit := do
  let key ← operationKey P server mode identity pending
  -- Persist recovery state before any fallible probe can strand the key.
  let inputs ← match prepared with
    | some inputs => pure inputs
    | none => localRegistrationInputs build args identity
  let registration : Registration :=
    ⟨build, identity, inputs.runtime, inputs.policy, inputs.signerCertificateSha256, mode⟩
  let body ← exchange P server token registration key
  commit P server registration pending existing inputs.policyUpdate body

/-- A credential that is still fresh ends the command, unless there is something to change. -/
def finish (build : Build) (args : List String) (server mode : String) (token : Option String)
    (identity : DeviceIdentity) (pending : Option PendingRegistration)
    (existing : Option CommunityCredential) : Command Unit := do
  let fresh ← match existing.filter (credentialMatchesIdentity · identity server) with
    | none => pure false
    | some credential => pure (credentialIsFresh credential (← now))
  if fresh then do
    let inputs ← localRegistrationInputs build args identity
    if inputs.policyUpdate.isNone ∧ ¬ hasOption args "--re-enroll" ∧
        (pending.isSome ∨ ¬ hasOption args "--force-refresh") then
      if pending.isSome then clearPendingRegistration
    else register P build args server mode token identity pending existing (some inputs)
  else register P build args server mode token identity pending existing none

end Ensure

def ensure (build : Build) (args : List String) : Command Unit := do
  lockRegistration
  let pending ← Ensure.findPending P args
  let store ← theStore
  let existing ← lift (ifPresent (store.loadForRotation P))
  let stored ← lift (ifPresent (store.loadIdentityMetadata P))
  let server ← Ensure.requestedServer P args pending existing stored
  let token ← tokenFromArgsIfPresent args
  let releaseProfile ← Ensure.requestedReleaseProfile args existing stored
  let credentialProfile ← Ensure.requestedCredentialProfile args stored
  if credentialProfile ≠ SUPPORTED_CREDENTIAL_PROFILE then fail .unsupportedCredentialProfile
  if pending.isNone then
    lift (validateRequestedIdentityContext server releaseProfile credentialProfile existing stored)
  let identity ← Ensure.findIdentity P server releaseProfile credentialProfile pending existing
    stored
  if (identity.releaseProfile ≠ releaseProfile ∨
      identity.credentialProfile ≠ credentialProfile) ∧ pending.isNone then
    fail .compatibilityMismatch
  if identity.needsEncryptionKeyRotation then fail .malformed
  let pending ← Ensure.reEnroll P args token server releaseProfile credentialProfile identity
    pending existing stored
  let mode := Ensure.enrollmentMode args pending existing stored
  if ¬ isEnrollmentMode mode then fail .malformed
  -- Retain non-secret origin metadata when short-lived credentials are retired.
  saveIdentityMetadata P identity server
  Ensure.finish P build args server mode token identity pending existing

/-! ## Rotation -/

/-- Creates or recovers a rotation, persisting its key before any request. -/
def prepareIdentityRotation (current : DeviceIdentity) : Command DeviceIdentity := do
  match ← loadPendingIdentityRotation current with
  | some pending =>
    let matchesCommitted := pending.generation = current.generation ∧
      pending.publicKeyB64 P = current.publicKeyB64 P ∧
      pending.encryptionPublicKeyB64 P = current.encryptionPublicKeyB64 P
    if ¬ matchesCommitted ∧ checkedSucc current.generation ≠ some pending.generation then
      fail .rotationConflict
    pure pending
  | none =>
    match checkedSucc current.generation with
    | none => fail .rotationConflict
    | some generation =>
      let pending : DeviceIdentity :=
        ⟨current.deviceId, ← ask .signingKey, ← ask .encryptionKey, generation,
          current.releaseProfile, current.credentialProfile, false⟩
      atomicOwnerWrite fun w =>
        w.stored { w.store with pendingKeyRotation := some (encodeIdentity pending) }
      pure pending

def pendingRotationMatches (existing : PendingRotation) (current next : DeviceIdentity) : Bool :=
  let digest := fun (key : String) => publicValueSha256 P key
  let targetMatches := existing.deviceId = current.deviceId &&
    existing.targetGeneration = next.generation &&
    existing.targetSigningPublicKeySha256 = digest (next.publicKeyB64 P) &&
    existing.targetEncryptionPublicKeySha256 = digest (next.encryptionPublicKeyB64 P)
  let sourceMatches := existing.currentGeneration = current.generation &&
    existing.oldSigningPublicKeySha256 = digest (current.publicKeyB64 P) &&
    existing.oldEncryptionPublicKeySha256 = digest (current.encryptionPublicKeyB64 P)
  let installedTargetMatches := existing.targetGeneration = current.generation &&
    existing.targetSigningPublicKeySha256 = digest (current.publicKeyB64 P) &&
    existing.targetEncryptionPublicKeySha256 = digest (current.encryptionPublicKeyB64 P)
  targetMatches && (sourceMatches || installedTargetMatches)

/-- Whether the key in place is the one a rotation leads to. -/
def isTarget (current next : DeviceIdentity) : Bool :=
  next.generation = current.generation && next.publicKeyB64 P = current.publicKeyB64 P &&
    next.encryptionPublicKeyB64 P = current.encryptionPublicKeyB64 P

/-- The recovery state of a rotation from `current` to `next`. -/
def rotationRecord (current next : DeviceIdentity) (revision : UInt64) (key : String)
    (createdAtUnix : UInt64) : PendingRotation where
  version := 1
  deviceId := current.deviceId
  currentGeneration := current.generation
  targetGeneration := next.generation
  previousCredentialRevision := revision
  oldSigningPublicKeySha256 := publicValueSha256 P (current.publicKeyB64 P)
  oldEncryptionPublicKeySha256 := publicValueSha256 P (current.encryptionPublicKeyB64 P)
  targetSigningPublicKeySha256 := publicValueSha256 P (next.publicKeyB64 P)
  targetEncryptionPublicKeySha256 := publicValueSha256 P (next.encryptionPublicKeyB64 P)
  idempotencyKey := key
  createdAtUnix := createdAtUnix

/-- `load_or_create_pending_rotation`. -/
def loadOrCreatePendingRotation (current next : DeviceIdentity)
    (currentCredentialRevision : UInt64) (idempotencyKey : Option String) :
    Command PendingRotation := do
  if currentCredentialRevision = 0 then fail .rotationConflict
  let sameIdentityScope := current.deviceId = next.deviceId ∧
    current.releaseProfile = next.releaseProfile ∧
    current.credentialProfile = next.credentialProfile
  let currentIsSource := next.generation = saturatingSucc current.generation
  if ¬ sameIdentityScope ∨ (¬ currentIsSource ∧ ¬ isTarget P current next) then
    fail .rotationConflict
  match ← lift (← theStore).readPendingRotation with
  | some existing =>
    if ¬ pendingRotationMatches P existing current next then fail .rotationConflict
    if currentCredentialRevision < existing.previousCredentialRevision then fail .rotationConflict
    if idempotencyKey.any (· ≠ existing.idempotencyKey) then fail .rotationConflict
    pure existing
  | none =>
    if ¬ currentIsSource then fail .rotationConflict
    let key ← match idempotencyKey with
      | some key => pure key
      | none => newIdempotencyKey
    if ¬ isIdempotencyKey key then fail .malformed
    let metadata := rotationRecord P current next currentCredentialRevision key (← now)
    atomicOwnerWrite fun w => w.stored { w.store with pendingRotation := some metadata }
    pure metadata

def clearPendingRotationMetadata : Command Unit :=
  removeOwnerFileIfPresent fun s => { s with pendingRotation := none }

/-- Finalizes committed rotation only after validating all recovery state. -/
def finishInterruptedIdentityRotation (identity : DeviceIdentity)
    (credential : CommunityCredential) : Command Bool := do
  match ← lift (← theStore).readPendingRotation with
  | none => pure false
  | some rotation =>
    if (← loadPendingIdentityRotation identity).isSome ∨ rotation.deviceId ≠ identity.deviceId ∨
        rotation.targetGeneration ≠ identity.generation ∨
        rotation.targetSigningPublicKeySha256 ≠ publicValueSha256 P (identity.publicKeyB64 P) ∨
        rotation.targetEncryptionPublicKeySha256 ≠
          publicValueSha256 P (identity.encryptionPublicKeyB64 P) ∨
        credential.deviceId ≠ identity.deviceId ∨
        credential.releaseProfile ≠ identity.releaseProfile ∨
        credential.credentialProfile ≠ identity.credentialProfile ∨
        credential.revision ≤ rotation.previousCredentialRevision then
      pure false
    else do
      let metadata ← lift ((← theStore).loadIdentityMetadata P)
      if metadata.deviceId ≠ identity.deviceId ∨ metadata.serverUrl ≠ credential.serverUrl ∨
          metadata.releaseProfile ≠ identity.releaseProfile ∨
          metadata.credentialProfile ≠ identity.credentialProfile then
        fail .rotationConflict
      match (← theStore).loadActiveBinding identity.deviceId with
      | .ok _ => fail .rotationConflict
      | .error .missing => pure ()
      | .error e => fail e
      clearPendingRotationMetadata
      pure true

/-- Commits Server-confirmed rotation while retaining pending state on partial failure. -/
def commitIdentityRotation (identity : DeviceIdentity) (credential : CommunityCredential) :
    Command Unit := do
  match ← loadPendingIdentityRotation identity with
  | none => fail .missing
  | some pending =>
    if pending.generation ≠ identity.generation ∨
        pending.publicKeyB64 P ≠ identity.publicKeyB64 P ∨
        pending.encryptionPublicKeyB64 P ≠ identity.encryptionPublicKeyB64 P ∨
        credential.deviceId ≠ identity.deviceId ∨
        credential.credentialProfile ≠ identity.credentialProfile then
      fail .rotationConflict
    saveIdentity identity
    saveIdentityMetadata P identity credential.serverUrl
    save P credential
    clearActiveBinding
    removeOwnerFileIfPresent fun s => { s with pendingKeyRotation := none }
    clearPendingRotationMetadata

namespace Rotate

/-- The evidence of this machine for a rotation's payload. -/
def evidence (build : Build) : Probe (String × VerifiedLocalPolicy) := do
  let runtime ← orCompatibilityMismatch (probeRuntime build)
  let (_, policy) ← mapLocalPolicyError
    (loadPolicy (some build.supportedSkillVersion) (some runtime))
  pure (runtime, policy)

/-- The request of a prepared rotation, and its commit. -/
def submit (build : Build) (token signer : String) (previous : CommunityCredential)
    (current next : DeviceIdentity) : Command Unit := do
  let rotation ← loadOrCreatePendingRotation P current next previous.revision none
  let currentIsTarget := current.generation = rotation.targetGeneration && isTarget P current next
  let (runtime, policy) ← evidence build
  let registration : Registration := ⟨build, next, runtime, policy, signer, "rotate"⟩
  let api ← lift (withUserToken P previous.serverUrl token next)
  let body ← api.rotateDevice P registration rotation.idempotencyKey
  let nowUnix ← now
  match credentialFromRegistrationResponseStrict P body previous.serverUrl next signer
      (registrationPayload P registration)
      (if currentIsTarget then none else some previous.revision) nowUnix with
  | .error e => raise e
  | .ok credential =>
    if currentIsTarget ∧ credential.revision < previous.revision then fail .rotationConflict
    record (.issued credential)
    commitIdentityRotation P next credential

/-- What follows once the identity in place is not the result of an interrupted rotation. -/
def start (build : Build) (args : List String) (token : String) (previous : CommunityCredential)
    (current : DeviceIdentity) : Command Unit := do
  let signer ← orCompatibilityMismatch
    (signerCertificateSha256ForProfile build args (some current.releaseProfile))
  let existingRotation ← lift (← theStore).readPendingRotation
  let prepared ← loadPendingIdentityRotation current
  -- Metadata without its prepared key is not a recoverable pre-commit state.
  if existingRotation.isSome ∧ prepared.isNone then fail .rotationConflict
  let active ← lift (ifPresent ((← theStore).loadActiveBinding current.deviceId))
  if active.isSome ∧ existingRotation.isNone ∧ prepared.isNone then
    failText "an active binding must be stopped before rotating the device identity"
  let next ← match prepared with
    | some identity => pure identity
    | none => prepareIdentityRotation P current
  submit P build token signer previous current next

end Rotate

def deviceRotate (build : Build) (args : List String) : Command Unit := do
  if ¬ hasOption args "--confirm" then
    failText "explicit --confirm is required to rotate the device identity"
  lockRegistration
  let token ← tokenFromArgs args
  let previous ← lift ((← theStore).loadForRotation P)
  let current ← loadIdentity previous.deviceId previous.releaseProfile previous.credentialProfile
  if ← finishInterruptedIdentityRotation P current previous then pure ()
  else Rotate.start P build args token previous current

/-! ## Policy changes of a registered device -/

def synchronizeRegisteredPolicy (build : Build) (args : List String) (runtime : String)
    (policy : VerifiedLocalPolicy) : Command (Option CommunityCredential) := do
  match (← theStore).loadForRotation P with
  | .error .missing =>
    if hasOption args "--token" ∨ hasOption args "--signer-certificate-sha256" then
      failText "policy synchronization options require an already registered device"
    pure none
  | .error e => fail e
  | .ok previous =>
    match ← liftText (option args "--token") with
    | none => failText "--token is required to change policy for a registered device"
    | some token =>
      let identity ← loadIdentity previous.deviceId previous.releaseProfile
        previous.credentialProfile
      let certificate ← orCompatibilityMismatch
        (signerCertificateSha256ForProfile build args (some identity.releaseProfile))
      let registration : Registration := ⟨build, identity, runtime, policy, certificate, "ensure"⟩
      let key ← newIdempotencyKey
      let api ← lift (withUserToken P previous.serverUrl token identity)
      let response ← api.ensureWithRetry P registration key
      let nowUnix ← now
      match credentialFromRegistrationResponseStrict P response previous.serverUrl identity
          certificate (registrationPayload P registration) (some previous.revision) nowUnix with
      | .error e => raise e
      | .ok credential =>
        record (.issued credential)
        pure (some credential)

end Device
end EgoBridge
