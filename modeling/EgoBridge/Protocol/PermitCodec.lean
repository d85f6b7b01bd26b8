import EgoBridge.Protocol.Codec

/-!
# Protocol.PermitCodec

The permit and the capability as JSON, as the bridge writes them and the wrapper reads them.

* `RequestPermit.codec`, `BridgeCapability.codec` — each is read back from its canonical text.
-/

namespace EgoBridge
namespace Protocol

open Json

def ReleaseProfile.name : ReleaseProfile → String
  | .logicTest => "logic-test"
  | .developmentLocal => "development-local"
  | .communityLocalTrust => "community-local-trust"
  | .developerId => "developer-id"

def ReleaseProfile.table : List (String × ReleaseProfile) :=
  [.logicTest, .developmentLocal, .communityLocalTrust, .developerId].map fun t => (t.name, t)

def CredentialProfile.name : CredentialProfile → String
  | .communityFile => "community_file"
  | .keychainAccessGroup => "keychain_access_group"

def CredentialProfile.table : List (String × CredentialProfile) :=
  [.communityFile, .keychainAccessGroup].map fun t => (t.name, t)

/-! ## Records -/

def RequestPermit.members (p : RequestPermit) : List (String × Json) :=
  [("binding_id", .str p.bindingId), ("generation", ofU64 p.generation),
    ("request_id", .str p.requestId), ("sequence", ofU64 p.sequence),
    ("expires_at_unix_ms", ofU64 p.expiresAtUnixMs),
    ("max_payload_bytes", ofNat p.maxPayloadBytes), ("max_script_bytes", ofNat p.maxScriptBytes),
    ("default_task_space", .str p.defaultTaskSpace),
    ("allowlist_revision", ofU64 p.allowlistRevision),
    ("learning_bundle_digest", ofOption .str p.learningBundleDigest),
    ("concurrency_mode", .str p.concurrencyMode.name),
    ("task_space_scope", ofOption .str p.taskSpaceScope),
    ("tab_scope", ofOption .str p.tabScope)]

def RequestPermit.toJson (p : RequestPermit) : Json := .obj p.members

def RequestPermit.names : List String :=
  ["binding_id", "generation", "request_id", "sequence", "expires_at_unix_ms",
    "max_payload_bytes", "max_script_bytes", "default_task_space", "allowlist_revision",
    "learning_bundle_digest", "concurrency_mode", "task_space_scope", "tab_scope"]

def RequestPermit.ofJson (v : Json) : Option RequestPermit := do
  let ms ← fields names v
  let bindingId ← required ms "binding_id" asString
  let generation ← required ms "generation" asU64
  let requestId ← required ms "request_id" asString
  let sequence ← required ms "sequence" asU64
  let expiresAtUnixMs ← required ms "expires_at_unix_ms" asU64
  let maxPayloadBytes ← required ms "max_payload_bytes" asUsize
  let maxScriptBytes ← required ms "max_script_bytes" asUsize
  let defaultTaskSpace ← required ms "default_task_space" asString
  let allowlistRevision ← required ms "allowlist_revision" asU64
  let learningBundleDigest ← optional ms "learning_bundle_digest" asString
  let concurrencyMode ← required ms "concurrency_mode" (asVariant ConcurrencyMode.table)
  let taskSpaceScope ← optional ms "task_space_scope" asString
  let tabScope ← optional ms "tab_scope" asString
  some
    { bindingId, generation, requestId, sequence, expiresAtUnixMs, maxPayloadBytes, maxScriptBytes,
      defaultTaskSpace, allowlistRevision, learningBundleDigest, concurrencyMode, taskSpaceScope,
      tabScope }

def BridgeCapability.members (b : BridgeCapability) : List (String × Json) :=
  [("bridge_protocol_version", .str b.bridgeProtocolVersion),
    ("remote_wrapper_version", .str b.remoteWrapperVersion),
    ("local_ego_browser_runtime_version", .str b.localEgoBrowserRuntimeVersion),
    ("ego_lite_runtime_version", .str b.egoLiteRuntimeVersion),
    ("skill_version", .str b.skillVersion), ("release_profile", .str b.releaseProfile.name),
    ("signer_certificate_sha256", .str b.signerCertificateSha256),
    ("credential_profile", .str b.credentialProfile.name),
    ("allowlist_revision", ofU64 b.allowlistRevision),
    ("allowlist_roots_digest", ofOption .str b.allowlistRootsDigest),
    ("learning_bundle_digest", ofOption .str b.learningBundleDigest),
    ("max_parallel_requests", ofNat b.maxParallelRequests),
    ("max_script_bytes", ofNat b.maxScriptBytes),
    ("max_execute_timeout_ms", ofU64 b.maxExecuteTimeoutMs),
    ("supported_concurrency", .arr (b.supportedConcurrency.map fun mode => .str mode.name)),
    ("capabilities", .arr (b.capabilities.map .str)), ("remote_platform", .str b.remotePlatform),
    ("local_platform", .str b.localPlatform)]

def BridgeCapability.toJson (b : BridgeCapability) : Json := .obj b.members

def BridgeCapability.names : List String :=
  ["bridge_protocol_version", "remote_wrapper_version", "local_ego_browser_runtime_version",
    "ego_lite_runtime_version", "skill_version", "release_profile", "signer_certificate_sha256",
    "credential_profile", "allowlist_revision", "allowlist_roots_digest", "learning_bundle_digest",
    "max_parallel_requests", "max_script_bytes", "max_execute_timeout_ms", "supported_concurrency",
    "capabilities", "remote_platform", "local_platform"]

def BridgeCapability.ofJson (v : Json) : Option BridgeCapability := do
  let ms ← fields names v
  let bridgeProtocolVersion ← required ms "bridge_protocol_version" asString
  let remoteWrapperVersion ← required ms "remote_wrapper_version" asString
  let localEgoBrowserRuntimeVersion ← required ms "local_ego_browser_runtime_version" asString
  let egoLiteRuntimeVersion ← required ms "ego_lite_runtime_version" asString
  let skillVersion ← required ms "skill_version" asString
  let releaseProfile ← required ms "release_profile" (asVariant ReleaseProfile.table)
  let signerCertificateSha256 ← required ms "signer_certificate_sha256" asString
  let credentialProfile ← required ms "credential_profile" (asVariant CredentialProfile.table)
  let allowlistRevision ← required ms "allowlist_revision" asU64
  let allowlistRootsDigest ← optional ms "allowlist_roots_digest" asString
  let learningBundleDigest ← optional ms "learning_bundle_digest" asString
  let maxParallelRequests ← required ms "max_parallel_requests" asUsize
  let maxScriptBytes ← required ms "max_script_bytes" asUsize
  let maxExecuteTimeoutMs ← required ms "max_execute_timeout_ms" asU64
  let supportedConcurrency ←
    required ms "supported_concurrency" (asList (asVariant ConcurrencyMode.table))
  let capabilities ← required ms "capabilities" (asList asString)
  let remotePlatform ← required ms "remote_platform" asString
  let localPlatform ← required ms "local_platform" asString
  some
    { bridgeProtocolVersion, remoteWrapperVersion, localEgoBrowserRuntimeVersion,
      egoLiteRuntimeVersion, skillVersion, releaseProfile, signerCertificateSha256,
      credentialProfile, allowlistRevision, allowlistRootsDigest, learningBundleDigest,
      maxParallelRequests, maxScriptBytes, maxExecuteTimeoutMs, supportedConcurrency, capabilities,
      remotePlatform, localPlatform }

/-! ## Round trips -/

@[simp] theorem ReleaseProfile.lookup_name (t : ReleaseProfile) :
    asVariant table (.str t.name) = some t := by
  cases t <;> rfl

@[simp] theorem CredentialProfile.lookup_name (t : CredentialProfile) :
    asVariant table (.str t.name) = some t := by
  cases t <;> rfl

theorem RequestPermit.codec (p : RequestPermit) (hp : p.maxPayloadBytes < 2 ^ 64)
    (hs : p.maxScriptBytes < 2 ^ 64) : Codec toJson ofJson 1 p where
  strict := by simp [toJson, members, Strict, StrictMembers]
  inRange := by
    simp [toJson, members, InRange, InRangeMembers, inRange_usize hp, inRange_usize hs]
  nesting := by simp [toJson, members, nesting, nestingMembers]
  read := by
    obtain ⟨ms, hf, hl⟩ := fields_canonical names p.members (by simp [members])
      (by simp [members, names])
    refine reads hf ?_
    refine reads (required_str hl (k := "binding_id") rfl) ?_
    refine reads (required_u64 hl (k := "generation") rfl) ?_
    refine reads (required_str hl (k := "request_id") rfl) ?_
    refine reads (required_u64 hl (k := "sequence") rfl) ?_
    refine reads (required_u64 hl (k := "expires_at_unix_ms") rfl) ?_
    refine reads (required_usize hl (k := "max_payload_bytes") rfl hp) ?_
    refine reads (required_usize hl (k := "max_script_bytes") rfl hs) ?_
    refine reads (required_str hl (k := "default_task_space") rfl) ?_
    refine reads (required_u64 hl (k := "allowlist_revision") rfl) ?_
    refine reads (optional_str hl (k := "learning_bundle_digest") rfl) ?_
    refine reads
      (required_variant hl (k := "concurrency_mode") rfl p.concurrencyMode.lookup_name) ?_
    refine reads (optional_str hl (k := "task_space_scope") rfl) ?_
    refine reads (optional_str hl (k := "tab_scope") rfl) ?_
    rfl

theorem strictElems_scalar {α : Type} {write : α → Json} (h : ∀ a, Scalar (write a))
    (as : List α) : StrictElems (as.map write) ∧ nestingElems (as.map write) = 0 := by
  induction as with
  | nil => simp [StrictElems, nestingElems]
  | cons a as ih =>
    obtain ⟨hs, hn, -⟩ := h a
    simp [StrictElems, nestingElems, hs, hn, ih.1, ih.2]

/-- Both numbers are `usize` in the source. -/
theorem BridgeCapability.codec (b : BridgeCapability) (hp : b.maxParallelRequests < 2 ^ 64)
    (hs : b.maxScriptBytes < 2 ^ 64) : Codec toJson ofJson 2 b where
  strict := by
    have h1 := (strictElems_scalar (fun m : ConcurrencyMode => scalar_str m.name)
      b.supportedConcurrency).1
    have h2 := (strictElems_scalar scalar_str b.capabilities).1
    simp [toJson, members, Strict, StrictMembers, h1, h2]
  inRange := by
    simp [toJson, members, InRange, InRangeMembers, inRangeElems_iff, inRange_usize hp,
      inRange_usize hs]
  nesting := by
    have h1 := (strictElems_scalar (fun m : ConcurrencyMode => scalar_str m.name)
      b.supportedConcurrency).2
    have h2 := (strictElems_scalar scalar_str b.capabilities).2
    simp [toJson, members, nesting, nestingMembers, h1, h2]
  read := by
    obtain ⟨ms, hf, hl⟩ := fields_canonical names b.members (by simp [members])
      (by simp [members, names])
    refine reads hf ?_
    refine reads (required_str hl (k := "bridge_protocol_version") rfl) ?_
    refine reads (required_str hl (k := "remote_wrapper_version") rfl) ?_
    refine reads (required_str hl (k := "local_ego_browser_runtime_version") rfl) ?_
    refine reads (required_str hl (k := "ego_lite_runtime_version") rfl) ?_
    refine reads (required_str hl (k := "skill_version") rfl) ?_
    refine reads (required_variant hl (k := "release_profile") rfl b.releaseProfile.lookup_name) ?_
    refine reads (required_str hl (k := "signer_certificate_sha256") rfl) ?_
    refine reads
      (required_variant hl (k := "credential_profile") rfl b.credentialProfile.lookup_name) ?_
    refine reads (required_u64 hl (k := "allowlist_revision") rfl) ?_
    refine reads (optional_str hl (k := "allowlist_roots_digest") rfl) ?_
    refine reads (optional_str hl (k := "learning_bundle_digest") rfl) ?_
    refine reads (required_usize hl (k := "max_parallel_requests") rfl hp) ?_
    refine reads (required_usize hl (k := "max_script_bytes") rfl hs) ?_
    refine reads (required_u64 hl (k := "max_execute_timeout_ms") rfl) ?_
    refine reads (required_canonical hl (k := "supported_concurrency") rfl
      (asList_canonical fun m _ => by simp)) ?_
    refine reads (required_canonical hl (k := "capabilities") rfl
      (asList_canonical fun s _ => by simp)) ?_
    refine reads (required_str hl (k := "remote_platform") rfl) ?_
    refine reads (required_str hl (k := "local_platform") rfl) ?_
    rfl

end Protocol
end EgoBridge
