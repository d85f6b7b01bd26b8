import EgoBridge.Device.Client
import EgoBridge.Json.Size
import EgoBridge.Protocol.Crypto

/-!
# Device.Records

The records the device client keeps in its store, their checks, and the identity key file.

A record's file holds its compact JSON text, which a strict reader gets back; what is modelled of
the text is its size. The key files are modelled as bytes.

* `Platform` — the crates the client builds on: URL parsing, key derivation, SHA-256, RFC 3339.
* `Build`    — the constants of one build of the client.
* `decodeIdentity_encode` — the current key format is read back as it was written.
* `size_metadata`, `size_pendingRotation`, `size_activeBinding`, `size_localAdmissionRecord` —
  valid records fit the store's size bound.
-/

namespace EgoBridge
namespace Device

open Protocol Json

def MAX_CREDENTIAL_BYTES : Nat := 64 * 1024
def TOKEN_MAX_BYTES : Nat := 4096
def MAX_ALLOWLIST_ROOTS : Nat := 128
def DEFAULT_PENDING_REGISTRATION_TTL_SECS : UInt64 := 24 * 60 * 60
def COMMUNITY_PROFILE_ID : String := "community-local-trust"
def SUPPORTED_CREDENTIAL_PROFILE : String := "community_file"
def TRUSTED_COMMUNITY_SIGNER_CERTIFICATE_SHA256 : String :=
  "1b1527d1c0ac6b3a1e95ccd7d4e6462ece9f5a42d2f4d309d09170588a4197e5"
def LOCAL_ADMISSION_CLOSED : String := "closed"
def LOCAL_ADMISSION_READY : String := "ready"
def LOCAL_ADMISSION_OPEN : String := "open"

/-! ## The platform -/

/-- What `reqwest::Url` tells of a parsed URL. -/
structure Url where
  scheme : String
  username : String
  password : Option String
  hostStr : Option String
  query : Option String
  fragment : Option String
  path : String
  origin : String

structure Platform where
  parseUrl : String → Option Url
  verifyingKey : Key → Key
  x25519PublicKey : Key → Key
  sha256 : Bytes → Key
  /-- The Unix time of an RFC 3339 text. -/
  parseRfc3339 : String → Option Int

structure Build where
  packageVersion : String
  supportedSkillVersion : String
  supportedLocalRuntimeVersion : String
  macos : Bool
  deriving DecidableEq

variable (P : Platform)

/-- Normalize and validate the only network origin used by the Bridge clients. -/
def canonicalServerUrl (value : String) : Except CredentialError String :=
  match P.parseUrl value with
  | none => .error .malformed
  | some url =>
    if url.scheme ≠ "https" ∨ url.username ≠ "" ∨ url.password.isSome ∨ url.hostStr.isNone ∨
        url.query.isSome ∨ url.fragment.isSome ∨ (url.path ≠ "/" ∧ url.path ≠ "") then
      .error .malformed
    else if ¬ (utf8 "https://").isPrefixOf (utf8 url.origin) ∨
        512 < (utf8 url.origin).length then
      .error .malformed
    else .ok url.origin

def hexByte (b : UInt8) : List Char := [hexDigit (b.toNat / 16), hexDigit (b.toNat % 16)]

def publicValueSha256 (value : String) : String :=
  String.ofList ((P.sha256 (utf8 value)).bytes.flatMap hexByte)

/-! ## Records -/

structure CommunityCredential where
  version : UInt32
  deviceId : String
  serverUrl : String
  token : String
  credentialId : Option String
  releaseProfile : String
  credentialProfile : String
  expiresAtUnix : UInt64
  revision : UInt64
  deriving DecidableEq

structure StoredIdentityMetadata where
  version : UInt32
  deviceId : String
  serverUrl : String
  releaseProfile : String
  credentialProfile : String
  deriving DecidableEq

structure PendingRegistration where
  version : UInt32
  deviceId : String
  deviceGeneration : UInt64
  serverUrl : String
  releaseProfile : String
  credentialProfile : String
  enrollmentMode : String
  signingPublicKeySha256 : String
  encryptionPublicKeySha256 : String
  idempotencyKey : String
  createdAtUnix : UInt64
  lastErrorCode : Option String
  deriving DecidableEq

structure PendingRotation where
  version : UInt32
  deviceId : String
  currentGeneration : UInt64
  targetGeneration : UInt64
  previousCredentialRevision : UInt64
  oldSigningPublicKeySha256 : String
  oldEncryptionPublicKeySha256 : String
  targetSigningPublicKeySha256 : String
  targetEncryptionPublicKeySha256 : String
  idempotencyKey : String
  createdAtUnix : UInt64
  deriving DecidableEq

structure ActiveBinding where
  version : UInt32
  bindingId : String
  generation : UInt64
  deviceId : String
  taskSpaceLabel : String
  authorizationMode : String
  userConfirmation : Bool
  deriving DecidableEq

structure LocalAdmissionRecord where
  version : UInt32
  state : String
  deviceId : Option String
  deviceGeneration : Option UInt64
  bindingId : Option String
  bindingGeneration : Option UInt64
  updatedAtUnix : UInt64
  deriving DecidableEq

structure LocalPolicy where
  version : UInt32
  policyRevision : UInt64
  allowlistRevision : UInt64
  allowlistRoots : List String
  allowlistRootsDigest : Option String
  learningBundleRoot : Option String
  deriving DecidableEq

instance : Inhabited LocalPolicy := ⟨⟨1, 1, 1, [], none, none⟩⟩

structure VerifiedLearningBundle where
  digest : String
  bundleVersion : String
  skillVersion : String
  localEgoBrowserRuntimeVersion : String
  deriving DecidableEq

/-- An allowlist is modelled by its canonical roots. -/
structure VerifiedLocalPolicy where
  policyRevision : UInt64
  allowlistRevision : UInt64
  allowlistRootsDigest : Option String
  allowlist : Option (List String)
  learningBundle : Option VerifiedLearningBundle
  deriving DecidableEq

def CORE_CAPABILITIES : List String :=
  ["ego_browser_script_execute_v1", "ego_browser_snapshot_v1",
    "ego_browser_screenshot_artifact_v1", "ego_browser_task_space_v1",
    "ego_browser_concurrency_v1"]

namespace VerifiedLocalPolicy

/-- Return exactly the capabilities backed by verified local resources. -/
def capabilities (p : VerifiedLocalPolicy) : List String :=
  CORE_CAPABILITIES ++ (if p.allowlist.isSome then ["ego_browser_file_allowlist_v1"] else []) ++
    (if p.learningBundle.isSome then ["ego_browser_site_learning_v1"] else [])

def learningBundleDigest (p : VerifiedLocalPolicy) : Option String :=
  p.learningBundle.map (·.digest)

end VerifiedLocalPolicy

structure DeviceIdentity where
  deviceId : String
  signingKey : Key
  encryptionKey : Key
  generation : UInt64
  releaseProfile : String
  credentialProfile : String
  legacyEncryptionKey : Bool
  deriving DecidableEq

namespace DeviceIdentity

def publicKeyB64 (i : DeviceIdentity) : String := encodeB64url (P.verifyingKey i.signingKey).bytes

def encryptionPublicKeyB64 (i : DeviceIdentity) : String :=
  encodeB64url (P.x25519PublicKey i.encryptionKey).bytes

def needsEncryptionKeyRotation (i : DeviceIdentity) : Bool := i.legacyEncryptionKey

end DeviceIdentity

/-! ## Their texts -/

def strs (values : List String) : Json := .arr (values.map .str)

def CommunityCredential.toJson (c : CommunityCredential) : Json :=
  .obj [("version", ofU32 c.version), ("device_id", .str c.deviceId),
    ("server_url", .str c.serverUrl), ("token", .str c.token),
    ("credential_id", ofOption .str c.credentialId), ("release_profile", .str c.releaseProfile),
    ("credential_profile", .str c.credentialProfile), ("expires_at_unix", ofU64 c.expiresAtUnix),
    ("revision", ofU64 c.revision)]

def StoredIdentityMetadata.toJson (m : StoredIdentityMetadata) : Json :=
  .obj [("version", ofU32 m.version), ("device_id", .str m.deviceId),
    ("server_url", .str m.serverUrl), ("release_profile", .str m.releaseProfile),
    ("credential_profile", .str m.credentialProfile)]

def PendingRegistration.toJson (p : PendingRegistration) : Json :=
  .obj [("version", ofU32 p.version), ("device_id", .str p.deviceId),
    ("device_generation", ofU64 p.deviceGeneration), ("server_url", .str p.serverUrl),
    ("release_profile", .str p.releaseProfile), ("credential_profile", .str p.credentialProfile),
    ("enrollment_mode", .str p.enrollmentMode),
    ("signing_public_key_sha256", .str p.signingPublicKeySha256),
    ("encryption_public_key_sha256", .str p.encryptionPublicKeySha256),
    ("idempotency_key", .str p.idempotencyKey), ("created_at_unix", ofU64 p.createdAtUnix),
    ("last_error_code", ofOption .str p.lastErrorCode)]

def PendingRotation.toJson (r : PendingRotation) : Json :=
  .obj [("version", ofU32 r.version), ("device_id", .str r.deviceId),
    ("current_generation", ofU64 r.currentGeneration),
    ("target_generation", ofU64 r.targetGeneration),
    ("previous_credential_revision", ofU64 r.previousCredentialRevision),
    ("old_signing_public_key_sha256", .str r.oldSigningPublicKeySha256),
    ("old_encryption_public_key_sha256", .str r.oldEncryptionPublicKeySha256),
    ("target_signing_public_key_sha256", .str r.targetSigningPublicKeySha256),
    ("target_encryption_public_key_sha256", .str r.targetEncryptionPublicKeySha256),
    ("idempotency_key", .str r.idempotencyKey), ("created_at_unix", ofU64 r.createdAtUnix)]

def ActiveBinding.toJson (b : ActiveBinding) : Json :=
  .obj [("version", ofU32 b.version), ("binding_id", .str b.bindingId),
    ("generation", ofU64 b.generation), ("device_id", .str b.deviceId),
    ("task_space_label", .str b.taskSpaceLabel),
    ("authorization_mode", .str b.authorizationMode),
    ("user_confirmation", .bool b.userConfirmation)]

def LocalAdmissionRecord.toJson (r : LocalAdmissionRecord) : Json :=
  .obj [("version", ofU32 r.version), ("state", .str r.state),
    ("device_id", ofOption .str r.deviceId),
    ("device_generation", ofOption ofU64 r.deviceGeneration),
    ("binding_id", ofOption .str r.bindingId),
    ("binding_generation", ofOption ofU64 r.bindingGeneration),
    ("updated_at_unix", ofU64 r.updatedAtUnix)]

def LocalPolicy.toJson (p : LocalPolicy) : Json :=
  .obj [("version", ofU32 p.version), ("policy_revision", ofU64 p.policyRevision),
    ("allowlist_revision", ofU64 p.allowlistRevision), ("allowlist_roots", strs p.allowlistRoots),
    ("allowlist_roots_digest", ofOption .str p.allowlistRootsDigest),
    ("learning_bundle_root", ofOption .str p.learningBundleRoot)]

/-! ## Their checks -/

def isApiId (value : String) : Bool := (validateApiId value).isOk

def isProfileByte (b : UInt8) : Bool := isApiIdByte b || b = 0x3a

def isReleaseProfile (value : String) : Bool :=
  !value.isEmpty && (utf8 value).length ≤ 128 && (utf8 value).all isProfileByte

/-- A graphic byte that needs no quoting. -/
def isTokenByte (b : UInt8) : Bool := 0x21 ≤ b && b ≤ 0x7e && b ≠ 0x22 && b ≠ 0x5c

def isIdempotencyKey (key : String) : Bool :=
  22 ≤ (utf8 key).length && (utf8 key).length ≤ 256 && (utf8 key).all isTokenByte

/-- `u8::is_ascii_hexdigit`. -/
def isAsciiHexdigit (b : UInt8) : Bool := isHexByte b || (0x41 ≤ b && b ≤ 0x46)

def validCommunityCredential (c : CommunityCredential) (nowUnix : Option UInt64) : Bool :=
  c.version = 1 && isReleaseProfile c.releaseProfile && c.credentialProfile = "community_file" &&
    isApiId c.deviceId && canonicalServerUrl P c.serverUrl = .ok c.serverUrl &&
    !c.token.isEmpty && (utf8 c.token).length ≤ TOKEN_MAX_BYTES &&
    (utf8 "egbc_").isPrefixOf (utf8 c.token) && (utf8 c.token).all isTokenByte &&
    nowUnix.all (fun now => now < c.expiresAtUnix) && 0 < c.expiresAtUnix && 0 < c.revision

def validStoredIdentityMetadata (m : StoredIdentityMetadata) : Bool :=
  m.version = 1 && isApiId m.deviceId && canonicalServerUrl P m.serverUrl = .ok m.serverUrl &&
    isReleaseProfile m.releaseProfile && m.credentialProfile = "community_file"

def isEnrollmentMode (mode : String) : Bool :=
  mode = "initial" || mode = "ensure" || mode = "re_enroll" || mode = "rotate"

/-- The check of `read_pending_registration`. -/
def readablePendingRegistration (p : PendingRegistration) : Bool :=
  p.version = 1 && isApiId p.deviceId && (canonicalServerUrl P p.serverUrl).isOk &&
    isEnrollmentMode p.enrollmentMode && p.deviceGeneration ≠ 0 && p.createdAtUnix ≠ 0 &&
    isIdempotencyKey p.idempotencyKey && (utf8 p.signingPublicKeySha256).length = 64 &&
    (utf8 p.encryptionPublicKeySha256).length = 64 &&
    (utf8 p.signingPublicKeySha256).all isAsciiHexdigit &&
    (utf8 p.encryptionPublicKeySha256).all isAsciiHexdigit

/-- The check of `save_pending_registration`: the digests and the key's bytes are not looked at. -/
def writablePendingRegistration (p : PendingRegistration) : Bool :=
  p.version = 1 && p.deviceGeneration ≠ 0 && p.createdAtUnix ≠ 0 && isApiId p.deviceId &&
    (canonicalServerUrl P p.serverUrl).isOk && isEnrollmentMode p.enrollmentMode &&
    22 ≤ (utf8 p.idempotencyKey).length && (utf8 p.idempotencyKey).length ≤ 256

def isLowerSha256 (value : String) : Bool :=
  (utf8 value).length = 64 && (utf8 value).all isHexByte

/-- `u64::saturating_add(1)`. -/
def saturatingSucc (n : UInt64) : UInt64 := if n = UInt64.ofNat (2 ^ 64 - 1) then n else n + 1

/-- `u64::checked_add(1)`. -/
def checkedSucc (n : UInt64) : Option UInt64 :=
  if n = UInt64.ofNat (2 ^ 64 - 1) then none else some (n + 1)

/-- `u64::saturating_add`. -/
def saturatingAdd (m n : UInt64) : UInt64 :=
  if m.toNat + n.toNat < 2 ^ 64 then m + n else UInt64.ofNat (2 ^ 64 - 1)

/-- The check of `read_pending_rotation`. -/
def validPendingRotation (r : PendingRotation) : Bool :=
  r.version = 1 && isApiId r.deviceId && r.currentGeneration ≠ 0 &&
    r.targetGeneration = saturatingSucc r.currentGeneration &&
    r.previousCredentialRevision ≠ 0 && r.createdAtUnix ≠ 0 &&
    isIdempotencyKey r.idempotencyKey && isLowerSha256 r.oldSigningPublicKeySha256 &&
    isLowerSha256 r.oldEncryptionPublicKeySha256 && isLowerSha256 r.targetSigningPublicKeySha256 &&
    isLowerSha256 r.targetEncryptionPublicKeySha256

def validActiveBinding (b : ActiveBinding) : Bool :=
  b.version = 1 && isApiId b.bindingId && isApiId b.deviceId && b.generation ≠ 0 &&
    isDedicatedTaskSpace b.taskSpaceLabel &&
    b.authorizationMode = "ego_browser_script_full_trust" && b.userConfirmation

def validLocalAdmissionRecord (r : LocalAdmissionRecord) : Bool :=
  r.version = 1 &&
    (r.state = LOCAL_ADMISSION_CLOSED || r.state = LOCAL_ADMISSION_READY ||
      r.state = LOCAL_ADMISSION_OPEN) &&
    r.updatedAtUnix ≠ 0 && r.deviceId.all isApiId && r.bindingId.all isApiId &&
    r.deviceGeneration ≠ some 0 && r.bindingGeneration ≠ some 0 &&
    (if r.state = LOCAL_ADMISSION_OPEN then
      r.deviceId.isSome && r.deviceGeneration.isSome && r.bindingId.isSome &&
        r.bindingGeneration.isSome
    else r.bindingId.isNone && r.bindingGeneration.isNone)

/-! ## Key files -/

/-- What a key file says. Only the current format says the encryption key. -/
structure IdentityFile where
  signingKey : Key
  encryptionKey : Option Key
  generation : UInt64

def identityTag : Bytes := utf8 "EGBKEY2" ++ [0]
def legacyIdentityTag : Bytes := utf8 "EGBKEY1" ++ [0]

def encodeIdentity (i : DeviceIdentity) : Bytes :=
  identityTag ++ (toBeBytes i.generation ++ (i.signingKey.bytes ++ i.encryptionKey.bytes))

/-- `u64::from_be_bytes`. -/
def fromBeBytes (bytes : Bytes) : UInt64 :=
  bytes.foldl (fun n b => n * 256 + b.toUInt64) 0

def asKey (bytes : Bytes) : Option Key :=
  if h : bytes.length = 32 then some ⟨bytes, h⟩ else none

def decodeIdentity (bytes : Bytes) : Except CredentialError IdentityFile :=
  if bytes.length ≠ 8 + 8 + 32 + 32 ∧ bytes.length ≠ 8 + 8 + 32 then .error .malformed
  else
    let format := bytes.take 8
    if format ≠ identityTag ∧ format ≠ legacyIdentityTag then .error .malformed
    else
      let generation := fromBeBytes ((bytes.drop 8).take 8)
      if generation = 0 then .error .malformed
      else
        match asKey ((bytes.drop 16).take 32) with
        | none => .error .malformed
        | some key =>
          if format = identityTag then
            match asKey (bytes.drop 48) with
            | none => .error .malformed
            | some encryption => .ok ⟨key, some encryption, generation⟩
          else .ok ⟨key, none, generation⟩

theorem fromBeBytes_toBeBytes (n : UInt64) : fromBeBytes (toBeBytes n) = n := by
  have hn := n.toNat_lt
  simp only [fromBeBytes, toBeBytes, List.map_cons, List.map_nil, List.foldl_cons, List.foldl_nil,
    ← UInt64.toNat_inj, UInt64.toNat_add, UInt64.toNat_mul, UInt8.toNat_toUInt64,
    UInt64.toNat_toUInt8, UInt64.toNat_shiftRight, Nat.shiftRight_eq_div_pow]
  simp
  omega

@[simp] theorem identityTag_length : identityTag.length = 8 := by decide

@[simp] theorem encodeIdentity_length (i : DeviceIdentity) : (encodeIdentity i).length = 80 := by
  simp [encodeIdentity, i.signingKey.length_eq, i.encryptionKey.length_eq]

theorem asKey_bytes (k : Key) : asKey k.bytes = some k := by
  rw [asKey, dif_pos k.length_eq]

/-- The current format is read back as it was written. -/
theorem decodeIdentity_encode {i : DeviceIdentity} (h : i.generation ≠ 0) :
    decodeIdentity (encodeIdentity i) = .ok ⟨i.signingKey, some i.encryptionKey, i.generation⟩ := by
  have ht : (encodeIdentity i).take 8 = identityTag := List.take_left' identityTag_length
  have h8 : (encodeIdentity i).drop 8 =
      toBeBytes i.generation ++ (i.signingKey.bytes ++ i.encryptionKey.bytes) :=
    List.drop_left' identityTag_length
  have h16 : (encodeIdentity i).drop 16 = i.signingKey.bytes ++ i.encryptionKey.bytes := by
    rw [show 16 = 8 + 8 from rfl, ← List.drop_drop, h8]
    exact List.drop_left' (toBeBytes_length _)
  have h48 : (encodeIdentity i).drop 48 = i.encryptionKey.bytes := by
    rw [show 48 = 16 + 32 from rfl, ← List.drop_drop, h16]
    exact List.drop_left' i.signingKey.length_eq
  rw [decodeIdentity, if_neg (by simp)]
  simp only [ht, h8, h16, h48, List.take_left' (toBeBytes_length _),
    List.take_left' i.signingKey.length_eq, fromBeBytes_toBeBytes, asKey_bytes, h, ↓reduceIte,
    ne_eq, not_true_eq_false, false_and]

theorem decodeIdentity_length {bytes : Bytes} {file : IdentityFile}
    (h : decodeIdentity bytes = .ok file) : bytes.length ≤ 80 := by
  unfold decodeIdentity at h
  split at h
  · cases h
  · omega

theorem decodeIdentity_generation {bytes : Bytes} {file : IdentityFile}
    (h : decodeIdentity bytes = .ok file) : file.generation ≠ 0 := by
  unfold decodeIdentity at h
  dsimp only at h
  split at h
  · cases h
  · split at h
    · cases h
    · split at h
      · cases h
      · rename_i hg
        split at h
        · cases h
        · split at h
          · split at h
            · cases h
            · cases h
              exact hg
          · cases h
            exact hg

/-! ## Texts made of bytes -/

theorem all_utf8_ofList {p : UInt8 → Bool} {cs : List Char}
    (h : ∀ c ∈ cs, (String.utf8EncodeChar c).all p = true) :
    (utf8 (String.ofList cs)).all p = true := by
  induction cs with
  | nil => rfl
  | cons c cs ih =>
    rw [utf8_ofList_cons, List.all_append, h c List.mem_cons_self,
      ih fun d hd => h d (List.mem_cons_of_mem c hd)]
    rfl

theorem utf8Len_ascii {cs : List Char} (h : ∀ c ∈ cs, c.utf8Size = 1) : utf8Len cs = cs.length := by
  induction cs with
  | nil => rfl
  | cons c cs ih =>
    rw [utf8Len_cons, ih fun d hd => h d (List.mem_cons_of_mem c hd), h c List.mem_cons_self,
      List.length_cons, Nat.add_comm]

theorem sym_token : ∀ n, n < 64 →
    (String.utf8EncodeChar (Base64.sym n)).all isTokenByte = true ∧ (Base64.sym n).utf8Size = 1 := by
  decide

/-- A drawn idempotency key is one. -/
theorem isIdempotencyKey_encode (k : Key) : isIdempotencyKey (encodeB64url k.bytes) = true := by
  have hsym : ∀ c ∈ Base64.encode k.bytes, (String.utf8EncodeChar c).all isTokenByte = true ∧
      c.utf8Size = 1 := by
    intro c hc
    obtain ⟨n, hn, rfl⟩ := Base64.mem_encode hc
    exact sym_token n hn
  have hlen : (utf8 (encodeB64url k.bytes)).length = 43 := by
    rw [encodeB64url, utf8_ofList_length, utf8Len_ascii fun c hc => (hsym c hc).2,
      Base64.encode_length, k.length_eq]
  have hall : (utf8 (encodeB64url k.bytes)).all isTokenByte = true :=
    all_utf8_ofList fun c hc => (hsym c hc).1
  rw [isIdempotencyKey, hlen, hall]
  rfl

theorem hexDigit_lower : ∀ n, n < 16 →
    (String.utf8EncodeChar (hexDigit n)).all isHexByte = true ∧ (hexDigit n).utf8Size = 1 := by
  decide

theorem mem_hexByte {b : UInt8} {c : Char} (h : c ∈ hexByte b) :
    (String.utf8EncodeChar c).all isHexByte = true ∧ c.utf8Size = 1 := by
  have hb := b.toNat_lt
  rcases List.mem_cons.mp h with rfl | h
  · exact hexDigit_lower _ (by omega)
  · rw [List.mem_singleton.mp h]
    exact hexDigit_lower _ (by omega)

theorem isLowerSha256_public (value : String) : isLowerSha256 (publicValueSha256 P value) = true := by
  have hsym : ∀ c ∈ (P.sha256 (utf8 value)).bytes.flatMap hexByte,
      (String.utf8EncodeChar c).all isHexByte = true ∧ c.utf8Size = 1 := by
    intro c hc
    obtain ⟨b, -, hb⟩ := List.mem_flatMap.mp hc
    exact mem_hexByte hb
  have hlen : (utf8 (publicValueSha256 P value)).length = 64 := by
    rw [publicValueSha256, utf8_ofList_length, utf8Len_ascii fun c hc => (hsym c hc).2,
      List.length_flatMap, show (fun b => (hexByte b).length) = fun _ => 2 from rfl,
      List.map_const', (P.sha256 (utf8 value)).length_eq]
    rfl
  have hall : (utf8 (publicValueSha256 P value)).all isHexByte = true :=
    all_utf8_ofList fun c hc => (hsym c hc).1
  rw [isLowerSha256, hlen, hall]
  rfl

/-! ## Sizes -/

theorem size_str_le {s : String} {n : Nat} (h : (utf8 s).length ≤ n) : size (.str s) ≤ 6 * n + 2 := by
  have := (escapedSize_bounds s).2
  rw [size, render, renderString_size]
  omega

theorem size_ofU64_le (n : UInt64) : size (ofU64 n) ≤ 20 := by
  rw [size_ofU64]
  exact (Nat.length_toDigits_le_iff (by decide) (by decide)).mpr
    (Nat.lt_trans n.toNat_lt (by decide))

theorem size_ofU32_le (n : UInt32) : size (ofU32 n) ≤ 20 := by
  rw [size_ofU32]
  exact (Nat.length_toDigits_le_iff (by decide) (by decide)).mpr
    (Nat.lt_trans n.toNat_lt (by decide))

theorem size_obj_le {ms : List (String × Json)} {n : Nat}
    (h : ∀ m ∈ ms, escapedSize m.1 ≤ 64 ∧ size m.2 ≤ n) :
    size (.obj ms) ≤ 2 + ms.length * (68 + n) := by
  have hsum : membersSize ms ≤ ms.length * (68 + n) := by
    induction ms with
    | nil => simp [membersSize]
    | cons m ms ih =>
      have hm := h m List.mem_cons_self
      have ih := ih fun x hx => h x (List.mem_cons_of_mem m hx)
      simp only [membersSize, List.map_cons, List.sum_cons, List.length_cons,
        Nat.succ_mul] at ih ⊢
      omega
  rw [size_obj]
  omega

/-- The length bounds of the texts of a record. -/
theorem length_of_isApiId {value : String} (h : isApiId value = true) :
    (utf8 value).length ≤ 128 := by
  unfold isApiId validateApiId at h
  split at h
  · cases h
  · rename_i hv
    omega

theorem length_of_canonical {value url : String} (h : canonicalServerUrl P value = .ok url) :
    (utf8 url).length ≤ 512 := by
  unfold canonicalServerUrl at h
  split at h
  · cases h
  · split at h
    · cases h
    · split at h
      · cases h
      · rename_i ho
        cases h
        omega

theorem size_metadata {m : StoredIdentityMetadata} (h : validStoredIdentityMetadata P m = true) :
    size m.toJson ≤ MAX_CREDENTIAL_BYTES := by
  simp only [validStoredIdentityMetadata, isReleaseProfile, Bool.and_eq_true,
    decide_eq_true_eq, and_assoc] at h
  obtain ⟨-, hid, hurl, -, hr, -, hc⟩ := h
  have hid := size_str_le (length_of_isApiId hid)
  have hurl := size_str_le (length_of_canonical P hurl)
  have hr := size_str_le hr
  have hc : size (.str m.credentialProfile) ≤ 86 := size_str_le (n := 14) (by rw [hc]; decide)
  have hv := size_ofU32_le m.version
  refine (size_obj_le (n := 3074) ?_).trans (by simp [MAX_CREDENTIAL_BYTES])
  simp only [List.forall_mem_cons]
  exact ⟨⟨by decide, by omega⟩, ⟨by decide, by omega⟩, ⟨by decide, by omega⟩, ⟨by decide, by omega⟩,
    ⟨by decide, by omega⟩, List.forall_mem_nil _⟩

theorem length_of_isDedicatedTaskSpace {value : String} (h : isDedicatedTaskSpace value = true) :
    (utf8 value).length ≤ 256 := by
  simp only [isDedicatedTaskSpace, Bool.and_eq_true, decide_eq_true_eq] at h
  exact h.2.1.2

theorem size_activeBinding {b : ActiveBinding} (h : validActiveBinding b = true) :
    size b.toJson ≤ MAX_CREDENTIAL_BYTES := by
  simp only [validActiveBinding, Bool.and_eq_true, decide_eq_true_eq, and_assoc] at h
  obtain ⟨-, hb, hd, -, hl, hm, hu⟩ := h
  have hb := size_str_le (length_of_isApiId hb)
  have hd := size_str_le (length_of_isApiId hd)
  have hl := size_str_le (length_of_isDedicatedTaskSpace hl)
  have hm : size (.str b.authorizationMode) ≤ 176 := size_str_le (n := 29) (by rw [hm]; decide)
  have hu : size (.bool b.userConfirmation) ≤ 4 := by rw [hu]; decide
  have hv := size_ofU32_le b.version
  have hn := size_ofU64_le b.generation
  refine (size_obj_le (n := 1538) ?_).trans (by simp [MAX_CREDENTIAL_BYTES])
  simp only [List.forall_mem_cons]
  exact ⟨⟨by decide, by omega⟩, ⟨by decide, by omega⟩, ⟨by decide, by omega⟩, ⟨by decide, by omega⟩,
    ⟨by decide, by omega⟩, ⟨by decide, by omega⟩, ⟨by decide, by omega⟩, List.forall_mem_nil _⟩

theorem size_option_id {id : Option String} (h : id.all isApiId = true) :
    size (ofOption .str id) ≤ 770 := by
  cases id with
  | none => decide
  | some id => exact size_str_le (length_of_isApiId h)

theorem size_option_u64 (n : Option UInt64) : size (ofOption ofU64 n) ≤ 20 := by
  cases n with
  | none => decide
  | some n => exact size_ofU64_le n

theorem size_localAdmissionRecord {r : LocalAdmissionRecord}
    (h : validLocalAdmissionRecord r = true) : size r.toJson ≤ 16 * 1024 := by
  simp only [validLocalAdmissionRecord, Bool.and_eq_true, Bool.or_eq_true, decide_eq_true_eq,
    and_assoc] at h
  obtain ⟨-, hs, -, hd, hb, -⟩ := h
  have hs : size (.str r.state) ≤ 38 := by
    refine size_str_le (n := 6) ?_
    rcases hs with (hs | hs) | hs
    all_goals rw [hs]; decide
  have hd := size_option_id hd
  have hb := size_option_id hb
  have hv := size_ofU32_le r.version
  have ht := size_ofU64_le r.updatedAtUnix
  have hdg := size_option_u64 r.deviceGeneration
  have hbg := size_option_u64 r.bindingGeneration
  refine (size_obj_le (n := 770) ?_).trans (by simp)
  simp only [List.forall_mem_cons]
  exact ⟨⟨by decide, by omega⟩, ⟨by decide, by omega⟩, ⟨by decide, by omega⟩, ⟨by decide, by omega⟩,
    ⟨by decide, by omega⟩, ⟨by decide, by omega⟩, ⟨by decide, by omega⟩, List.forall_mem_nil _⟩

theorem length_of_isIdempotencyKey {key : String} (h : isIdempotencyKey key = true) :
    (utf8 key).length ≤ 256 := by
  simp only [isIdempotencyKey, Bool.and_eq_true, decide_eq_true_eq] at h
  exact h.1.2

theorem length_of_isLowerSha256 {value : String} (h : isLowerSha256 value = true) :
    (utf8 value).length ≤ 64 := by
  simp only [isLowerSha256, Bool.and_eq_true, decide_eq_true_eq] at h
  omega

theorem size_pendingRotation {r : PendingRotation} (h : validPendingRotation r = true) :
    size r.toJson ≤ MAX_CREDENTIAL_BYTES := by
  simp only [validPendingRotation, Bool.and_eq_true, and_assoc] at h
  obtain ⟨-, hid, -, -, -, -, hk, hos, hoe, hts, hte⟩ := h
  have hid := size_str_le (length_of_isApiId hid)
  have hk := size_str_le (length_of_isIdempotencyKey hk)
  have hos := size_str_le (length_of_isLowerSha256 hos)
  have hoe := size_str_le (length_of_isLowerSha256 hoe)
  have hts := size_str_le (length_of_isLowerSha256 hts)
  have hte := size_str_le (length_of_isLowerSha256 hte)
  have hv := size_ofU32_le r.version
  have hn := size_ofU64_le
  refine (size_obj_le (n := 1538) ?_).trans (by simp [MAX_CREDENTIAL_BYTES])
  simp only [List.forall_mem_cons]
  exact ⟨⟨by decide, by omega⟩, ⟨by decide, by omega⟩, ⟨by decide, (hn _).trans (by decide)⟩,
    ⟨by decide, (hn _).trans (by decide)⟩, ⟨by decide, (hn _).trans (by decide)⟩,
    ⟨by decide, by omega⟩, ⟨by decide, by omega⟩, ⟨by decide, by omega⟩, ⟨by decide, by omega⟩,
    ⟨by decide, by omega⟩, ⟨by decide, (hn _).trans (by decide)⟩, List.forall_mem_nil _⟩

end Device
end EgoBridge
