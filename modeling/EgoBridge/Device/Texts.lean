import EgoBridge.Device.Store
import EgoBridge.Json.Pretty

/-!
# Device.Texts

The texts of the store's files: how each record is read from JSON, and that the strict reader gets
back from a file the record that was written to it.

* `Format`            — a record's writer and reader, with their round trip.
* `Format.readOwnerFile_text` — `read_owner_file` and the strict parser on a written text do what
  the model's `ownerFile` does on the record.
-/

namespace EgoBridge
namespace Device

open Protocol Json

/-! ## Readers -/

def CommunityCredential.names : List String :=
  ["version", "device_id", "server_url", "token", "credential_id", "release_profile",
    "credential_profile", "expires_at_unix", "revision"]

def CommunityCredential.ofJson (v : Json) : Option CommunityCredential := do
  let ms ← fields names v
  let version ← required ms "version" asU32
  let deviceId ← required ms "device_id" asString
  let serverUrl ← required ms "server_url" asString
  let token ← required ms "token" asString
  let credentialId ← optional ms "credential_id" asString
  let releaseProfile ← byDefault ms "release_profile" asString COMMUNITY_PROFILE_ID
  let credentialProfile ← required ms "credential_profile" asString
  let expiresAtUnix ← required ms "expires_at_unix" asU64
  let revision ← required ms "revision" asU64
  some ⟨version, deviceId, serverUrl, token, credentialId, releaseProfile, credentialProfile,
    expiresAtUnix, revision⟩

def StoredIdentityMetadata.names : List String :=
  ["version", "device_id", "server_url", "release_profile", "credential_profile"]

def StoredIdentityMetadata.ofJson (v : Json) : Option StoredIdentityMetadata := do
  let ms ← fields names v
  let version ← required ms "version" asU32
  let deviceId ← required ms "device_id" asString
  let serverUrl ← required ms "server_url" asString
  let releaseProfile ← required ms "release_profile" asString
  let credentialProfile ← required ms "credential_profile" asString
  some ⟨version, deviceId, serverUrl, releaseProfile, credentialProfile⟩

def PendingRegistration.names : List String :=
  ["version", "device_id", "device_generation", "server_url", "release_profile",
    "credential_profile", "enrollment_mode", "signing_public_key_sha256",
    "encryption_public_key_sha256", "idempotency_key", "created_at_unix", "last_error_code"]

/-- The last field may also be left out of an array. -/
def PendingRegistration.ofJson (v : Json) : Option PendingRegistration := do
  let ms ← (fields names v).or (fields names.dropLast v)
  let version ← required ms "version" asU32
  let deviceId ← required ms "device_id" asString
  let deviceGeneration ← required ms "device_generation" asU64
  let serverUrl ← required ms "server_url" asString
  let releaseProfile ← required ms "release_profile" asString
  let credentialProfile ← required ms "credential_profile" asString
  let enrollmentMode ← byDefault ms "enrollment_mode" asString "initial"
  let signingPublicKeySha256 ← required ms "signing_public_key_sha256" asString
  let encryptionPublicKeySha256 ← required ms "encryption_public_key_sha256" asString
  let idempotencyKey ← required ms "idempotency_key" asString
  let createdAtUnix ← required ms "created_at_unix" asU64
  let lastErrorCode ← optional ms "last_error_code" asString
  some ⟨version, deviceId, deviceGeneration, serverUrl, releaseProfile, credentialProfile,
    enrollmentMode, signingPublicKeySha256, encryptionPublicKeySha256, idempotencyKey,
    createdAtUnix, lastErrorCode⟩

def PendingRotation.names : List String :=
  ["version", "device_id", "current_generation", "target_generation",
    "previous_credential_revision", "old_signing_public_key_sha256",
    "old_encryption_public_key_sha256", "target_signing_public_key_sha256",
    "target_encryption_public_key_sha256", "idempotency_key", "created_at_unix"]

def PendingRotation.ofJson (v : Json) : Option PendingRotation := do
  let ms ← fields names v
  let version ← required ms "version" asU32
  let deviceId ← required ms "device_id" asString
  let currentGeneration ← required ms "current_generation" asU64
  let targetGeneration ← required ms "target_generation" asU64
  let previousCredentialRevision ← required ms "previous_credential_revision" asU64
  let oldSigningPublicKeySha256 ← required ms "old_signing_public_key_sha256" asString
  let oldEncryptionPublicKeySha256 ← required ms "old_encryption_public_key_sha256" asString
  let targetSigningPublicKeySha256 ← required ms "target_signing_public_key_sha256" asString
  let targetEncryptionPublicKeySha256 ← required ms "target_encryption_public_key_sha256" asString
  let idempotencyKey ← required ms "idempotency_key" asString
  let createdAtUnix ← required ms "created_at_unix" asU64
  some ⟨version, deviceId, currentGeneration, targetGeneration, previousCredentialRevision,
    oldSigningPublicKeySha256, oldEncryptionPublicKeySha256, targetSigningPublicKeySha256,
    targetEncryptionPublicKeySha256, idempotencyKey, createdAtUnix⟩

def ActiveBinding.names : List String :=
  ["version", "binding_id", "generation", "device_id", "task_space_label", "authorization_mode",
    "user_confirmation"]

def ActiveBinding.ofJson (v : Json) : Option ActiveBinding := do
  let ms ← fields names v
  let version ← required ms "version" asU32
  let bindingId ← required ms "binding_id" asString
  let generation ← required ms "generation" asU64
  let deviceId ← required ms "device_id" asString
  let taskSpaceLabel ← required ms "task_space_label" asString
  let authorizationMode ← required ms "authorization_mode" asString
  let userConfirmation ← required ms "user_confirmation" asBoolean
  some ⟨version, bindingId, generation, deviceId, taskSpaceLabel, authorizationMode,
    userConfirmation⟩

def LocalAdmissionRecord.names : List String :=
  ["version", "state", "device_id", "device_generation", "binding_id", "binding_generation",
    "updated_at_unix"]

def LocalAdmissionRecord.ofJson (v : Json) : Option LocalAdmissionRecord := do
  let ms ← fields names v
  let version ← required ms "version" asU32
  let state ← required ms "state" asString
  let deviceId ← optional ms "device_id" asString
  let deviceGeneration ← optional ms "device_generation" asU64
  let bindingId ← optional ms "binding_id" asString
  let bindingGeneration ← optional ms "binding_generation" asU64
  let updatedAtUnix ← required ms "updated_at_unix" asU64
  some ⟨version, state, deviceId, deviceGeneration, bindingId, bindingGeneration, updatedAtUnix⟩

def LocalPolicy.names : List String :=
  ["version", "policy_revision", "allowlist_revision", "allowlist_roots",
    "allowlist_roots_digest", "learning_bundle_root"]

def LocalPolicy.ofJson (v : Json) : Option LocalPolicy := do
  let ms ← fields names v
  let version ← required ms "version" asU32
  let policyRevision ← required ms "policy_revision" asU64
  let allowlistRevision ← required ms "allowlist_revision" asU64
  let allowlistRoots ← required ms "allowlist_roots" (asList asString)
  let allowlistRootsDigest ← optional ms "allowlist_roots_digest" asString
  let learningBundleRoot ← optional ms "learning_bundle_root" asString
  some ⟨version, policyRevision, allowlistRevision, allowlistRoots, allowlistRootsDigest,
    learningBundleRoot⟩

/-! ## Round trips -/

theorem CommunityCredential.ofJson_toJson (c : CommunityCredential) :
    CommunityCredential.ofJson c.toJson = some c := by
  refine reads (by simp [fields, toJson, names]; rfl) ?_
  refine reads (a := c.version) (asU32_ofU32 _) ?_
  refine reads (a := c.deviceId) rfl ?_
  refine reads (a := c.serverUrl) rfl ?_
  refine reads (a := c.token) rfl ?_
  refine reads (a := c.credentialId) (asOption_str _) ?_
  refine reads (a := c.releaseProfile) rfl ?_
  refine reads (a := c.credentialProfile) rfl ?_
  refine reads (a := c.expiresAtUnix) (asU64_ofU64 _) ?_
  exact reads (a := c.revision) (asU64_ofU64 _) rfl

theorem StoredIdentityMetadata.ofJson_toJson (m : StoredIdentityMetadata) :
    StoredIdentityMetadata.ofJson m.toJson = some m := by
  refine reads (by simp [fields, toJson, names]; rfl) ?_
  refine reads (a := m.version) (asU32_ofU32 _) ?_
  refine reads (a := m.deviceId) rfl ?_
  refine reads (a := m.serverUrl) rfl ?_
  refine reads (a := m.releaseProfile) rfl ?_
  exact reads (a := m.credentialProfile) rfl rfl

theorem PendingRegistration.ofJson_toJson (p : PendingRegistration) :
    PendingRegistration.ofJson p.toJson = some p := by
  refine reads (by simp [fields, toJson, names]; rfl) ?_
  refine reads (a := p.version) (asU32_ofU32 _) ?_
  refine reads (a := p.deviceId) rfl ?_
  refine reads (a := p.deviceGeneration) (asU64_ofU64 _) ?_
  refine reads (a := p.serverUrl) rfl ?_
  refine reads (a := p.releaseProfile) rfl ?_
  refine reads (a := p.credentialProfile) rfl ?_
  refine reads (a := p.enrollmentMode) rfl ?_
  refine reads (a := p.signingPublicKeySha256) rfl ?_
  refine reads (a := p.encryptionPublicKeySha256) rfl ?_
  refine reads (a := p.idempotencyKey) rfl ?_
  refine reads (a := p.createdAtUnix) (asU64_ofU64 _) ?_
  exact reads (a := p.lastErrorCode) (asOption_str _) rfl

theorem PendingRotation.ofJson_toJson (r : PendingRotation) :
    PendingRotation.ofJson r.toJson = some r := by
  refine reads (by simp [fields, toJson, names]; rfl) ?_
  refine reads (a := r.version) (asU32_ofU32 _) ?_
  refine reads (a := r.deviceId) rfl ?_
  refine reads (a := r.currentGeneration) (asU64_ofU64 _) ?_
  refine reads (a := r.targetGeneration) (asU64_ofU64 _) ?_
  refine reads (a := r.previousCredentialRevision) (asU64_ofU64 _) ?_
  refine reads (a := r.oldSigningPublicKeySha256) rfl ?_
  refine reads (a := r.oldEncryptionPublicKeySha256) rfl ?_
  refine reads (a := r.targetSigningPublicKeySha256) rfl ?_
  refine reads (a := r.targetEncryptionPublicKeySha256) rfl ?_
  refine reads (a := r.idempotencyKey) rfl ?_
  exact reads (a := r.createdAtUnix) (asU64_ofU64 _) rfl

theorem ActiveBinding.ofJson_toJson (b : ActiveBinding) :
    ActiveBinding.ofJson b.toJson = some b := by
  refine reads (by simp [fields, toJson, names]; rfl) ?_
  refine reads (a := b.version) (asU32_ofU32 _) ?_
  refine reads (a := b.bindingId) rfl ?_
  refine reads (a := b.generation) (asU64_ofU64 _) ?_
  refine reads (a := b.deviceId) rfl ?_
  refine reads (a := b.taskSpaceLabel) rfl ?_
  refine reads (a := b.authorizationMode) rfl ?_
  exact reads (a := b.userConfirmation) rfl rfl

theorem LocalAdmissionRecord.ofJson_toJson (r : LocalAdmissionRecord) :
    LocalAdmissionRecord.ofJson r.toJson = some r := by
  refine reads (by simp [fields, toJson, names]; rfl) ?_
  refine reads (a := r.version) (asU32_ofU32 _) ?_
  refine reads (a := r.state) rfl ?_
  refine reads (a := r.deviceId) (asOption_str _) ?_
  refine reads (a := r.deviceGeneration) (asOption_u64 _) ?_
  refine reads (a := r.bindingId) (asOption_str _) ?_
  refine reads (a := r.bindingGeneration) (asOption_u64 _) ?_
  exact reads (a := r.updatedAtUnix) (asU64_ofU64 _) rfl

theorem LocalPolicy.ofJson_toJson (p : LocalPolicy) :
    LocalPolicy.ofJson p.toJson = some p := by
  have hroots : asList asString (strs p.allowlistRoots) = some p.allowlistRoots := by
    rw [strs, asList, mapM_map (h := id) fun s _ => asString_str s, List.map_id]
  refine reads (by simp [fields, toJson, names]; rfl) ?_
  refine reads (a := p.version) (asU32_ofU32 _) ?_
  refine reads (a := p.policyRevision) (asU64_ofU64 _) ?_
  refine reads (a := p.allowlistRevision) (asU64_ofU64 _) ?_
  refine reads (a := p.allowlistRoots) hroots ?_
  refine reads (a := p.allowlistRootsDigest) (asOption_str _) ?_
  exact reads (a := p.learningBundleRoot) (asOption_str _) rfl

/-! ## Files -/

/-- How a record is written and read. -/
structure Format (α : Type) where
  toJson : α → Json
  ofJson : Json → Option α
  strict : ∀ a, Strict (toJson a)
  inRange : ∀ a, InRange (toJson a)
  nesting : ∀ a, Json.nesting (toJson a) < depthLimit
  ofJson_toJson : ∀ a, ofJson (toJson a) = some a

namespace Format

variable {α : Type} (f : Format α)

/-- `serde_json::to_vec`. -/
def text (a : α) : Bytes := utf8 (String.ofList (render (f.toJson a)))

/-- `read_owner_file` and `parse_strict_json`, on the bytes of a file. -/
def readOwnerFile (bad : CredentialError) : Option Bytes → Except CredentialError α
  | none => .error .missing
  | some bytes =>
    if MAX_CREDENTIAL_BYTES < bytes.length then .error .tooLarge
    else
      match parseStrictJson f.ofJson bytes with
      | .error _ => .error bad
      | .ok a => .ok a

/-- A written file is read as the record it was written from. -/
theorem readOwnerFile_text (bad : CredentialError) (file : Option α) :
    f.readOwnerFile bad (file.map f.text) = ownerFile (fun a => (f.toJson a).size) file := by
  cases file with
  | none => rfl
  | some a =>
    have hlen : (f.text a).length = (f.toJson a).size := utf8_ofList_length _
    have hp : parseStrictJson f.ofJson (f.text a) = .ok a :=
      parseStrictJson_render (f.strict a) (f.inRange a) (f.nesting a) (f.ofJson_toJson a)
    rw [Option.map_some, readOwnerFile, ownerFile, hlen, hp]

end Format

theorem scalar_ofOption_u64 (n : Option UInt64) : Scalar (ofOption ofU64 n) :=
  scalar_ofOption (fun _ => scalar_num _) n

theorem inRange_strs (values : List String) : InRange (strs values) := by
  rw [strs, InRange, inRangeElems_iff]
  simp

theorem strict_strs (values : List String) : Strict (strs values) := by
  rw [strs, Strict, strictElems_iff]
  simp [Strict]

theorem nesting_strs (values : List String) : Json.nesting (strs values) ≤ 1 := by
  have h : nestingElems (values.map .str) ≤ 0 := nestingElems_le_iff.mpr (by simp [Json.nesting])
  rw [strs, Json.nesting]
  omega

def CommunityCredential.format : Format CommunityCredential where
  toJson := toJson
  ofJson := ofJson
  strict := by simp [toJson, Strict, StrictMembers]
  inRange := by simp [toJson, InRange, InRangeMembers]
  nesting := by simp [toJson, Json.nesting, nestingMembers, depthLimit]
  ofJson_toJson := ofJson_toJson

def StoredIdentityMetadata.format : Format StoredIdentityMetadata where
  toJson := toJson
  ofJson := ofJson
  strict := by simp [toJson, Strict, StrictMembers]
  inRange := by simp [toJson, InRange, InRangeMembers]
  nesting := by simp [toJson, Json.nesting, nestingMembers, depthLimit]
  ofJson_toJson := ofJson_toJson

def PendingRegistration.format : Format PendingRegistration where
  toJson := toJson
  ofJson := ofJson
  strict := by simp [toJson, Strict, StrictMembers]
  inRange := by simp [toJson, InRange, InRangeMembers]
  nesting := by simp [toJson, Json.nesting, nestingMembers, depthLimit]
  ofJson_toJson := ofJson_toJson

def PendingRotation.format : Format PendingRotation where
  toJson := toJson
  ofJson := ofJson
  strict := by simp [toJson, Strict, StrictMembers]
  inRange := by simp [toJson, InRange, InRangeMembers]
  nesting := by simp [toJson, Json.nesting, nestingMembers, depthLimit]
  ofJson_toJson := ofJson_toJson

def ActiveBinding.format : Format ActiveBinding where
  toJson := toJson
  ofJson := ofJson
  strict := by simp [toJson, Strict, StrictMembers]
  inRange := by simp [toJson, InRange, InRangeMembers]
  nesting := by simp [toJson, Json.nesting, nestingMembers, depthLimit]
  ofJson_toJson := ofJson_toJson

def LocalAdmissionRecord.format : Format LocalAdmissionRecord where
  toJson := toJson
  ofJson := ofJson
  strict := by simp [toJson, Strict, StrictMembers, (scalar_ofOption_u64 _).1]
  inRange := by simp [toJson, InRange, InRangeMembers, inRange_ofOption]
  nesting := by simp [toJson, Json.nesting, nestingMembers, depthLimit, (scalar_ofOption_u64 _).2.1]
  ofJson_toJson := ofJson_toJson

def LocalPolicy.format : Format LocalPolicy where
  toJson := toJson
  ofJson := ofJson
  strict := by simp [toJson, Strict, StrictMembers, strict_strs]
  inRange := by simp [toJson, InRange, InRangeMembers, inRange_strs]
  nesting p := by
    have h := nesting_strs p.allowlistRoots
    simp only [toJson, Json.nesting, nestingMembers, depthLimit, nesting_ofU32, nesting_ofU64,
      nesting_ofOption_str]
    omega
  ofJson_toJson := ofJson_toJson

end Device
end EgoBridge
