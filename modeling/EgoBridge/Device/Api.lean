import EgoBridge.Device.Policy

/-!
# Device.Api

The control-plane client: what it posts, and the payload of a registration.

A proof is asked for by its own request, before the request it is added to. Every request is
logged as it is posted.

* `registrationPayload` — what a registration tells the server, the same for `ensure` and rotation.
* `ensureWithRetry`     — an idempotent enrollment is posted at most five times.
-/

namespace EgoBridge
namespace Device

open Protocol Json Crash

variable (P : Platform)

/-! ## Registrations -/

def optStr : Option String → Json := ofOption .str

def policyDigest (policy : VerifiedLocalPolicy) : String :=
  publicValueSha256 P (String.ofList (render (.obj
    [("allowlist_revision", ofU64 policy.allowlistRevision),
      ("allowlist_roots_digest", optStr policy.allowlistRootsDigest),
      ("learning_bundle_digest", optStr policy.learningBundleDigest)])))

def sortTexts (texts : List String) : List String := texts.mergeSort fun a b => a ≤ b

def capabilityDigest (policy : VerifiedLocalPolicy) : String :=
  publicValueSha256 P ("\n".intercalate (sortTexts policy.capabilities))

def registrationMembers (r : Registration) : List (String × Json) :=
  [("device_id", .str r.identity.deviceId),
    ("public_key", .str (r.identity.publicKeyB64 P)),
    ("encryption_public_key", .str (r.identity.encryptionPublicKeyB64 P)),
    ("signing_public_key", .str (r.identity.publicKeyB64 P)),
    ("device_generation", ofU64 r.identity.generation),
    ("generation", ofU64 r.identity.generation),
    ("release_profile", .str r.identity.releaseProfile),
    ("credential_profile", .str r.identity.credentialProfile),
    ("enrollment_mode", .str r.enrollmentMode),
    ("platform", .str "macos"),
    ("bridge_protocol_version", .str PROTOCOL_VERSION),
    ("bridge_version", .str r.build.packageVersion),
    ("local_ego_browser_runtime_version", .str r.runtime),
    ("ego_lite_runtime_version", .str r.runtime),
    ("skill_version", .str r.build.supportedSkillVersion),
    ("signer_certificate_sha256", .str r.signerCertificateSha256),
    ("allowlist_revision", ofU64 r.policy.allowlistRevision),
    ("allowlist_roots_digest", optStr r.policy.allowlistRootsDigest),
    ("learning_bundle_digest", optStr r.policy.learningBundleDigest),
    ("capabilities", strs r.policy.capabilities),
    ("policy_digest", .str (policyDigest P r.policy)),
    ("capability_digest", .str (capabilityDigest P r.policy))]

def registrationPayload (r : Registration) : Json := .obj (registrationMembers P r)

/-! ## The client -/

structure DeviceApiClient where
  baseUrl : String
  token : String
  identity : DeviceIdentity

def withIdentity (credential : CommunityCredential) (identity : DeviceIdentity) :
    Except CredentialError DeviceApiClient :=
  match canonicalServerUrl P credential.serverUrl with
  | .error e => .error e
  | .ok baseUrl =>
    if baseUrl ≠ credential.serverUrl then .error .malformed
    else if identity.deviceId ≠ credential.deviceId ∨
        identity.releaseProfile ≠ credential.releaseProfile ∨
        identity.credentialProfile ≠ credential.credentialProfile then
      .error .malformed
    else .ok ⟨baseUrl, credential.token, identity⟩

/-- Creates a registration or rotation client without persisting its user credential. -/
def withUserToken (serverUrl userToken : String) (identity : DeviceIdentity) :
    Except CredentialError DeviceApiClient :=
  match canonicalServerUrl P serverUrl with
  | .error e => .error e
  | .ok baseUrl =>
    if baseUrl ≠ serverUrl ∨ userToken.isEmpty ∨ TOKEN_MAX_BYTES < (utf8 userToken).length ∨
        ¬ (utf8 userToken).all isTokenByte then
      .error .malformed
    else .ok ⟨baseUrl, userToken, identity⟩

namespace DeviceApiClient

def postWithIdempotency (client : DeviceApiClient) (path : String) (payload : Json)
    (idempotencyKey : Option String) (registration : Option Registration) : Command Json := do
  let request : Request := ⟨client.baseUrl, path, client.token, idempotencyKey, payload⟩
  record (.sent request registration)
  let exchange : Exchange ← ask (.post request)
  lift exchange.decode

def challengePayload (client : DeviceApiClient) (generation : UInt64) (operation : String)
    (bindingId : Option String) : Json :=
  .obj ([("operation", .str operation),
      ("ego_browser_device_id", .str client.identity.deviceId),
      ("generation", ofU64 generation), ("binding_id", optStr bindingId)] ++
    if operation = "register_device" ∨ operation = "revoke_device" then []
    else [("device_generation", ofU64 client.identity.generation),
      ("operation_generation", ofU64 generation)])

/-- Whether `device_proof_message` has a transcript for the proof. -/
def proofContextValid (client : DeviceApiClient) (generation : UInt64) (operation : String)
    (host : String) : Bool :=
  operation ≠ "" && client.identity.deviceId ≠ "" && client.identity.generation ≠ 0 &&
    generation ≠ 0 && client.identity.releaseProfile ≠ "" &&
    client.identity.credentialProfile ≠ "" && host ≠ ""

def addProofForGeneration (client : DeviceApiClient) (generation : UInt64) (operation : String)
    (bindingId : Option String) : Command Unit := do
  if generation = 0 then fail .malformed
  let response ← client.postWithIdempotency "/api/v1/ego-browser/proof-challenges"
    (client.challengePayload generation operation bindingId) none none
  match ((get response "data").bind (get · "challenge")).bind asStr with
  | none => fail .malformed
  | some text =>
    match Base64.decode text.toList with
    | none => fail .malformed
    | some challenge =>
      if challenge.length ≠ 32 then fail .malformed
      match (P.parseUrl client.baseUrl).bind (·.hostStr) with
      | none => fail .malformed
      | some host =>
        if ¬ client.proofContextValid generation operation host then fail .malformed

/-- The fields of a registration that must be the client's own identity. -/
def matchesIdentity (client : DeviceApiClient) (payload : Json) : Bool :=
  let identity := client.identity
  (get payload "device_id").bind asStr = some identity.deviceId &&
    (get payload "public_key").bind asStr = some (identity.publicKeyB64 P) &&
    (get payload "signing_public_key").all (fun v => asStr v = some (identity.publicKeyB64 P)) &&
    (get payload "encryption_public_key").bind asStr =
      some (identity.encryptionPublicKeyB64 P) &&
    (get payload "generation").bind asU64 = some identity.generation &&
    (get payload "device_generation").all (fun v => asU64 v = some identity.generation) &&
    (get payload "release_profile").bind asStr = some identity.releaseProfile &&
    (get payload "credential_profile").bind asStr = some identity.credentialProfile &&
    (get payload "proof_challenge").isNone && (get payload "proof_signature").isNone

def registerDeviceAt (client : DeviceApiClient) (path : String) (registration : Registration)
    (idempotencyKey : Option String) (proofOperation : String) : Command Json := do
  let payload := registrationPayload P registration
  if ¬ client.matchesIdentity P payload then fail .malformed
  client.addProofForGeneration P client.identity.generation proofOperation none
  client.postWithIdempotency path payload idempotencyKey (some registration)

/-- Rotates identity under an idempotency namespace separate from `device.ensure`. -/
def rotateDevice (client : DeviceApiClient) (registration : Registration)
    (idempotencyKey : String) : Command Json := do
  if ¬ isIdempotencyKey idempotencyKey then fail .malformed
  client.registerDeviceAt P "/api/v1/ego-browser/devices/rotate" registration idempotencyKey
    "device_rotate"

/-- Ensures one local identity with an operation key separate from request tracing. -/
def ensureDevice (client : DeviceApiClient) (registration : Registration)
    (idempotencyKey : String) : Command Json := do
  if ¬ isIdempotencyKey idempotencyKey then fail .malformed
  client.registerDeviceAt P "/api/v1/ego-browser/devices/ensure" registration idempotencyKey
    "register_device"

def isRetryable : Failure → Bool
  | .credential e => e.isRetryableEnsureError
  | .message _ => false

/-- The pauses left for retries. -/
def ensureAttempts (client : DeviceApiClient) (registration : Registration)
    (idempotencyKey : String) : Nat → Command Json
  | 0 => client.ensureDevice P registration idempotencyKey
  | retries + 1 => do
    match ← (client.ensureDevice P registration idempotencyKey).attempt with
    | .ok value => pure value
    | .error e =>
      if isRetryable e then client.ensureAttempts registration idempotencyKey retries
      else raise e

/-- Retries only an idempotent enrollment exchange with unchanged identity. -/
def ensureWithRetry (client : DeviceApiClient) (registration : Registration)
    (idempotencyKey : String) : Command Json :=
  client.ensureAttempts P registration idempotencyKey 4

/-! ## Bindings -/

/-- A proof for a binding's generation, and the request it is added to. -/
def bindingRequest (client : DeviceApiClient) (bindingId : String) (generation : UInt64)
    (operation path : String) (members : List (String × Json)) : Command Json := do
  lift (validateApiId bindingId)
  client.addProofForGeneration P generation operation (some bindingId)
  client.postWithIdempotency ("/api/v1/ego-browser/bindings/" ++ bindingId ++ path)
    (.obj ([("generation", ofU64 generation), ("binding_generation", ofU64 generation)] ++ members))
    none none

def claim (client : DeviceApiClient) (members : List (String × Json)) : Command Json := do
  client.addProofForGeneration P client.identity.generation "claim_binding" none
  client.postWithIdempotency "/api/v1/ego-browser/bindings/claim"
    (.obj (members ++
      [("encryption_public_key", .str (client.identity.encryptionPublicKeyB64 P))])) none none

def stop (client : DeviceApiClient) (bindingId : String) (generation : UInt64) : Command Json :=
  client.bindingRequest P bindingId generation "stop_binding" "/stop" []

def revoke (client : DeviceApiClient) (bindingId : String) (generation : UInt64) : Command Json :=
  client.bindingRequest P bindingId generation "revoke_binding" "/revoke" []

def pause (client : DeviceApiClient) (bindingId : String) (generation : UInt64) : Command Json :=
  client.bindingRequest P bindingId generation "pause_binding" "/pause"
    [("reason", .str "user_pause")]

/-- Resume a paused binding with a fresh generation authorization. -/
def resume (client : DeviceApiClient) (bindingId : String) (generation allowlistRevision : UInt64)
    (learningBundleDigest : Option String) : Command Json :=
  client.bindingRequest P bindingId generation "resume_binding" "/resume"
    [("user_confirmation", .bool true), ("allowlist_revision", ofU64 allowlistRevision),
      ("learning_bundle_digest", optStr learningBundleDigest)]

/-- Confirm a new local helper allowlist and invalidate old permits. -/
def confirmAllowlist (client : DeviceApiClient) (bindingId : String) (generation : UInt64)
    (expectedRevision : UInt64) (rootsDigest : String) : Command Json :=
  client.bindingRequest P bindingId generation "confirm_allowlist" "/allowlist/confirm"
    [("expected_revision", ofU64 expectedRevision), ("roots_digest", .str rootsDigest),
      ("user_confirmation", .bool true)]

/-- Permanently revoke this independently authenticated ego-browser device. -/
def revokeDevice (client : DeviceApiClient) : Command Json := do
  lift (validateApiId client.identity.deviceId)
  client.addProofForGeneration P client.identity.generation "revoke_device" none
  client.postWithIdempotency
    ("/api/v1/ego-browser/devices/" ++ client.identity.deviceId ++ "/revoke")
    (.obj [("generation", ofU64 client.identity.generation), ("reason", .str "device_revoked")])
    none none

end DeviceApiClient

/-! ## Rules -/

/-- A registration is one of its own identity. -/
theorem matchesIdentity_payload {client : DeviceApiClient} {r : Registration}
    (h : client.identity = r.identity) :
    client.matchesIdentity P (registrationPayload P r) = true := by
  have hid : get (registrationPayload P r) "device_id" = some (.str r.identity.deviceId) := rfl
  have hkey : get (registrationPayload P r) "public_key" = some (.str (r.identity.publicKeyB64 P)) :=
    rfl
  have hsign : get (registrationPayload P r) "signing_public_key" =
      some (.str (r.identity.publicKeyB64 P)) := rfl
  have henc : get (registrationPayload P r) "encryption_public_key" =
      some (.str (r.identity.encryptionPublicKeyB64 P)) := rfl
  have hgen : get (registrationPayload P r) "generation" = some (ofU64 r.identity.generation) := rfl
  have hdev : get (registrationPayload P r) "device_generation" =
      some (ofU64 r.identity.generation) := rfl
  have hrel : get (registrationPayload P r) "release_profile" =
      some (.str r.identity.releaseProfile) := rfl
  have hcred : get (registrationPayload P r) "credential_profile" =
      some (.str r.identity.credentialProfile) := rfl
  have hchallenge : get (registrationPayload P r) "proof_challenge" = none := rfl
  have hproof : get (registrationPayload P r) "proof_signature" = none := rfl
  simp only [DeviceApiClient.matchesIdentity, h, hid, hkey, hsign, henc, hgen, hdev, hrel, hcred,
    hchallenge, hproof, Option.bind_some, Option.all_some, Option.isNone_none, asStr, asU64_ofU64,
    decide_true, Bool.and_self]
section

variable {E : Surroundings} {I : World → Prop} {F : Failure → World → Prop} {w : World}

/-- A request is logged, and then answered or not. -/
theorem wp_postWithIdempotency {client : DeviceApiClient} {path : String} {payload : Json}
    {key : Option String} {registration : Option Registration} {R : Json → World → Prop}
    {request : Request} (hr : request = ⟨client.baseUrl, path, client.token, key, payload⟩)
    (hI : I w) (hI1 : I (w.logged (.sent request registration)))
    (hF : ∀ x : Exchange, E (w.logged (.sent request registration)) (.post request) x →
      ∀ e, x.decode = .error e → F (.credential e) (w.logged (.sent request registration)))
    (hR : ∀ x : Exchange, E (w.logged (.sent request registration)) (.post request) x →
      ∀ body, x.decode = .ok body → R body (w.logged (.sent request registration))) :
    Cmd.wp E I F (client.postWithIdempotency path payload key registration) R w := by
  subst hr
  refine ⟨hI, hI1, ?_⟩
  intro x hx
  exact wp_lift (fun e he => hF x hx e he) fun body hb => hR x hx body hb

end

end Device
end EgoBridge
