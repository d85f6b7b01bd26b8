import EgoBridge.Json.Decode
import EgoBridge.Protocol.Types

/-!
# Protocol.Codec

The records as JSON, field by field in the order they are declared, and the readers of the types
the two programs parse.

* `OuterEnvelope.codec`, `InnerExecuteRequest.codec`, `InnerCancelRequest.codec`,
  `InnerExecuteResponse.codec` — each record is read back from its canonical text.
-/

namespace EgoBridge
namespace Protocol

open Json

/-! ## Names of variants -/

def OuterMessageType.name : OuterMessageType → String
  | .execute => "execute"
  | .executeResult => "execute_result"
  | .hello => "hello"
  | .renew => "renew"
  | .cancel => "cancel"

def OuterMessageType.table : List (String × OuterMessageType) :=
  [.execute, .executeResult, .hello, .renew, .cancel].map fun t => (t.name, t)

def Direction.name : Direction → String
  | .request => "request"
  | .response => "response"

def Direction.table : List (String × Direction) :=
  [.request, .response].map fun t => (t.name, t)

def InnerMessageType.name : InnerMessageType → String
  | .execute => "execute"
  | .executeResult => "execute_result"
  | .cancel => "cancel"
  | .error => "error"
  | .doctor => "doctor"
  | .reload => "reload"

def InnerMessageType.table : List (String × InnerMessageType) :=
  [.execute, .executeResult, .cancel, .error, .doctor, .reload].map fun t => (t.name, t)

def ExecutionStatus.name : ExecutionStatus → String
  | .completed => "completed"
  | .scriptError => "script_error"
  | .timeout => "timeout"
  | .cancelled => "cancelled"
  | .bridgeUnavailable => "bridge_unavailable"
  | .egoRuntimeUnavailable => "ego_runtime_unavailable"
  | .leaseExpired => "lease_expired"
  | .bindingRevoked => "binding_revoked"
  | .protocolError => "protocol_error"
  | .artifactError => "artifact_error"
  | .concurrencyConflict => "concurrency_conflict"
  | .leaseRenewalRequired => "lease_renewal_required"
  | .unknownResult => "unknown_result"

def ExecutionStatus.table : List (String × ExecutionStatus) :=
  [.completed, .scriptError, .timeout, .cancelled, .bridgeUnavailable, .egoRuntimeUnavailable,
    .leaseExpired, .bindingRevoked, .protocolError, .artifactError, .concurrencyConflict,
    .leaseRenewalRequired, .unknownResult].map fun t => (t.name, t)

def ConcurrencyMode.name : ConcurrencyMode → String
  | .taskSpaceTab => "task_space_tab"
  | .taskSpace => "task_space"
  | .binding => "binding"

def ConcurrencyMode.table : List (String × ConcurrencyMode) :=
  [.taskSpaceTab, .taskSpace, .binding].map fun t => (t.name, t)

/-! ## Records -/

def OuterEnvelope.members (e : OuterEnvelope) : List (String × Json) :=
  [("protocol", .str e.protocol), ("channel", .str e.channel),
    ("relay_binding_kind", .str e.relayBindingKind), ("type", .str e.messageType.name),
    ("request_id", .str e.requestId), ("binding_id", .str e.bindingId),
    ("generation", ofU64 e.generation), ("sequence", ofU64 e.sequence),
    ("direction", .str e.direction.name), ("payload_bytes", ofNat e.payloadBytes),
    ("nonce", .str e.nonce), ("ciphertext", .str e.ciphertext), ("auth_tag", .str e.authTag),
    ("key_wrap", .str e.keyWrap)]

def OuterEnvelope.toJson (e : OuterEnvelope) : Json := .obj e.members

def OuterEnvelope.names : List String :=
  ["protocol", "channel", "relay_binding_kind", "type", "request_id", "binding_id", "generation",
    "sequence", "direction", "payload_bytes", "nonce", "ciphertext", "auth_tag", "key_wrap"]

def OuterEnvelope.ofJson (v : Json) : Option OuterEnvelope := do
  let ms ← fields names v
  let protocol ← required ms "protocol" asString
  let channel ← required ms "channel" asString
  let relayBindingKind ← required ms "relay_binding_kind" asString
  let messageType ← required ms "type" (asVariant OuterMessageType.table)
  let requestId ← required ms "request_id" asString
  let bindingId ← required ms "binding_id" asString
  let generation ← required ms "generation" asU64
  let sequence ← required ms "sequence" asU64
  let direction ← required ms "direction" (asVariant Direction.table)
  let payloadBytes ← required ms "payload_bytes" asUsize
  let nonce ← required ms "nonce" asString
  let ciphertext ← required ms "ciphertext" asString
  let authTag ← required ms "auth_tag" asString
  let keyWrap ← required ms "key_wrap" asString
  some
    { protocol, channel, relayBindingKind, messageType, requestId, bindingId, generation, sequence,
      direction, payloadBytes, nonce, ciphertext, authTag, keyWrap }

def InnerExecuteRequest.members (r : InnerExecuteRequest) : List (String × Json) :=
  [("protocol", .str r.protocol), ("type", .str r.messageType.name), ("script", .str r.script),
    ("timeout_ms", ofU64 r.timeoutMs), ("cwd_label", .str r.cwdLabel),
    ("default_task_space", .str r.defaultTaskSpace),
    ("concurrency_mode", .str r.concurrencyMode.name),
    ("task_space_scope", ofOption .str r.taskSpaceScope),
    ("tab_scope", ofOption .str r.tabScope), ("allowlist_revision", ofU64 r.allowlistRevision),
    ("learning_bundle_digest", ofOption .str r.learningBundleDigest)]

def InnerExecuteRequest.toJson (r : InnerExecuteRequest) : Json := .obj r.members

def InnerExecuteRequest.names : List String :=
  ["protocol", "type", "script", "timeout_ms", "cwd_label", "default_task_space",
    "concurrency_mode", "task_space_scope", "tab_scope", "allowlist_revision",
    "learning_bundle_digest"]

def InnerExecuteRequest.ofJson (v : Json) : Option InnerExecuteRequest := do
  let ms ← fields names v
  let protocol ← required ms "protocol" asString
  let messageType ← required ms "type" (asVariant InnerMessageType.table)
  let script ← required ms "script" asString
  let timeoutMs ← required ms "timeout_ms" asU64
  let cwdLabel ← required ms "cwd_label" asString
  let defaultTaskSpace ← required ms "default_task_space" asString
  let concurrencyMode ← required ms "concurrency_mode" (asVariant ConcurrencyMode.table)
  let taskSpaceScope ← optional ms "task_space_scope" asString
  let tabScope ← optional ms "tab_scope" asString
  let allowlistRevision ← required ms "allowlist_revision" asU64
  let learningBundleDigest ← optional ms "learning_bundle_digest" asString
  some
    { protocol, messageType, script, timeoutMs, cwdLabel, defaultTaskSpace, concurrencyMode,
      taskSpaceScope, tabScope, allowlistRevision, learningBundleDigest }

def InnerCancelRequest.members (r : InnerCancelRequest) : List (String × Json) :=
  [("protocol", .str r.protocol), ("type", .str r.messageType.name),
    ("request_id", .str r.requestId), ("sequence", ofU64 r.sequence)]

def InnerCancelRequest.toJson (r : InnerCancelRequest) : Json := .obj r.members

def InnerCancelRequest.names : List String :=
  ["protocol", "type", "request_id", "sequence"]

def InnerCancelRequest.ofJson (v : Json) : Option InnerCancelRequest := do
  let ms ← fields names v
  let protocol ← required ms "protocol" asString
  let messageType ← required ms "type" (asVariant InnerMessageType.table)
  let requestId ← required ms "request_id" asString
  let sequence ← required ms "sequence" asU64
  some { protocol, messageType, requestId, sequence }

def ArtifactDescriptor.members (a : ArtifactDescriptor) : List (String × Json) :=
  [("artifact_id", .str a.artifactId), ("media_type", .str a.mediaType),
    ("size_bytes", ofU64 a.sizeBytes), ("width", ofU32 a.width), ("height", ofU32 a.height),
    ("content_b64", .str a.contentB64)]

def ArtifactDescriptor.toJson (a : ArtifactDescriptor) : Json := .obj a.members

def ArtifactDescriptor.names : List String :=
  ["artifact_id", "media_type", "size_bytes", "width", "height", "content_b64"]

def ArtifactDescriptor.ofJson (v : Json) : Option ArtifactDescriptor := do
  let ms ← fields names v
  let artifactId ← required ms "artifact_id" asString
  let mediaType ← required ms "media_type" asString
  let sizeBytes ← required ms "size_bytes" asU64
  let width ← required ms "width" asU32
  let height ← required ms "height" asU32
  let contentB64 ← required ms "content_b64" asString
  some { artifactId, mediaType, sizeBytes, width, height, contentB64 }

def InnerExecuteResponse.members (r : InnerExecuteResponse) : List (String × Json) :=
  [("protocol", .str r.protocol), ("type", .str r.messageType.name),
    ("request_id", .str r.requestId), ("sequence", ofU64 r.sequence),
    ("status", .str r.status.name), ("exit_code", ofOption ofI32 r.exitCode),
    ("stdout", .str r.stdout), ("stderr", .str r.stderr),
    ("artifacts", .arr (r.artifacts.map ArtifactDescriptor.toJson)),
    ("duration_ms", ofU64 r.durationMs)]

def InnerExecuteResponse.toJson (r : InnerExecuteResponse) : Json := .obj r.members

def InnerExecuteResponse.names : List String :=
  ["protocol", "type", "request_id", "sequence", "status", "exit_code", "stdout", "stderr",
    "artifacts", "duration_ms"]

def InnerExecuteResponse.ofJson (v : Json) : Option InnerExecuteResponse := do
  let ms ← fields names v
  let protocol ← required ms "protocol" asString
  let messageType ← required ms "type" (asVariant InnerMessageType.table)
  let requestId ← required ms "request_id" asString
  let sequence ← required ms "sequence" asU64
  let status ← required ms "status" (asVariant ExecutionStatus.table)
  let exitCode ← optional ms "exit_code" asI32
  let stdout ← required ms "stdout" asString
  let stderr ← required ms "stderr" asString
  let artifacts ← required ms "artifacts" (asList ArtifactDescriptor.ofJson)
  let durationMs ← required ms "duration_ms" asU64
  some
    { protocol, messageType, requestId, sequence, status, exitCode, stdout, stderr, artifacts,
      durationMs }

/-! ## Round trips -/

@[simp] theorem OuterMessageType.lookup_name (t : OuterMessageType) :
    asVariant table (.str t.name) = some t := by
  cases t <;> rfl

@[simp] theorem Direction.lookup_name (t : Direction) :
    asVariant table (.str t.name) = some t := by
  cases t <;> rfl

@[simp] theorem InnerMessageType.lookup_name (t : InnerMessageType) :
    asVariant table (.str t.name) = some t := by
  cases t <;> rfl

@[simp] theorem ExecutionStatus.lookup_name (t : ExecutionStatus) :
    asVariant table (.str t.name) = some t := by
  cases t <;> rfl

@[simp] theorem ConcurrencyMode.lookup_name (t : ConcurrencyMode) :
    asVariant table (.str t.name) = some t := by
  cases t <;> rfl

theorem OuterMessageType.name_injective {a b : OuterMessageType} (h : a.name = b.name) :
    a = b := by
  have ha := a.lookup_name
  rw [h, b.lookup_name] at ha
  exact (Option.some.inj ha).symm

theorem Direction.name_injective {a b : Direction} (h : a.name = b.name) : a = b := by
  have ha := a.lookup_name
  rw [h, b.lookup_name] at ha
  exact (Option.some.inj ha).symm

theorem OuterEnvelope.codec (e : OuterEnvelope) (h : e.payloadBytes < 2 ^ 64) :
    Codec toJson ofJson 1 e where
  strict := by simp [toJson, members, Strict, StrictMembers]
  inRange := by simp [toJson, members, InRange, InRangeMembers, inRange_usize h]
  nesting := by simp [toJson, members, nesting, nestingMembers]
  read := by
    obtain ⟨ms, hf, hl⟩ := fields_canonical names e.members (by simp [members])
      (by simp [members, names])
    refine reads hf ?_
    refine reads (required_str hl (k := "protocol") rfl) ?_
    refine reads (required_str hl (k := "channel") rfl) ?_
    refine reads (required_str hl (k := "relay_binding_kind") rfl) ?_
    refine reads (required_variant hl (k := "type") rfl e.messageType.lookup_name) ?_
    refine reads (required_str hl (k := "request_id") rfl) ?_
    refine reads (required_str hl (k := "binding_id") rfl) ?_
    refine reads (required_u64 hl (k := "generation") rfl) ?_
    refine reads (required_u64 hl (k := "sequence") rfl) ?_
    refine reads (required_variant hl (k := "direction") rfl e.direction.lookup_name) ?_
    refine reads (required_usize hl (k := "payload_bytes") rfl h) ?_
    refine reads (required_str hl (k := "nonce") rfl) ?_
    refine reads (required_str hl (k := "ciphertext") rfl) ?_
    refine reads (required_str hl (k := "auth_tag") rfl) ?_
    refine reads (required_str hl (k := "key_wrap") rfl) ?_
    rfl

theorem InnerExecuteRequest.codec (r : InnerExecuteRequest) :
    Codec toJson ofJson 1 r where
  strict := by simp [toJson, members, Strict, StrictMembers]
  inRange := by simp [toJson, members, InRange, InRangeMembers]
  nesting := by simp [toJson, members, nesting, nestingMembers]
  read := by
    obtain ⟨ms, hf, hl⟩ := fields_canonical names r.members (by simp [members])
      (by simp [members, names])
    refine reads hf ?_
    refine reads (required_str hl (k := "protocol") rfl) ?_
    refine reads (required_variant hl (k := "type") rfl r.messageType.lookup_name) ?_
    refine reads (required_str hl (k := "script") rfl) ?_
    refine reads (required_u64 hl (k := "timeout_ms") rfl) ?_
    refine reads (required_str hl (k := "cwd_label") rfl) ?_
    refine reads (required_str hl (k := "default_task_space") rfl) ?_
    refine reads (required_variant hl (k := "concurrency_mode") rfl r.concurrencyMode.lookup_name) ?_
    refine reads (optional_str hl (k := "task_space_scope") rfl) ?_
    refine reads (optional_str hl (k := "tab_scope") rfl) ?_
    refine reads (required_u64 hl (k := "allowlist_revision") rfl) ?_
    refine reads (optional_str hl (k := "learning_bundle_digest") rfl) ?_
    rfl

theorem InnerCancelRequest.codec (r : InnerCancelRequest) :
    Codec toJson ofJson 1 r where
  strict := by simp [toJson, members, Strict, StrictMembers]
  inRange := by simp [toJson, members, InRange, InRangeMembers]
  nesting := by simp [toJson, members, nesting, nestingMembers]
  read := by
    obtain ⟨ms, hf, hl⟩ := fields_canonical names r.members (by simp [members])
      (by simp [members, names])
    refine reads hf ?_
    refine reads (required_str hl (k := "protocol") rfl) ?_
    refine reads (required_variant hl (k := "type") rfl r.messageType.lookup_name) ?_
    refine reads (required_str hl (k := "request_id") rfl) ?_
    refine reads (required_u64 hl (k := "sequence") rfl) ?_
    rfl

theorem ArtifactDescriptor.codec (a : ArtifactDescriptor) :
    Codec toJson ofJson 1 a where
  strict := by simp [toJson, members, Strict, StrictMembers]
  inRange := by simp [toJson, members, InRange, InRangeMembers]
  nesting := by simp [toJson, members, nesting, nestingMembers]
  read := by
    obtain ⟨ms, hf, hl⟩ := fields_canonical names a.members (by simp [members])
      (by simp [members, names])
    refine reads hf ?_
    refine reads (required_str hl (k := "artifact_id") rfl) ?_
    refine reads (required_str hl (k := "media_type") rfl) ?_
    refine reads (required_u64 hl (k := "size_bytes") rfl) ?_
    refine reads (required_u32 hl (k := "width") rfl) ?_
    refine reads (required_u32 hl (k := "height") rfl) ?_
    refine reads (required_str hl (k := "content_b64") rfl) ?_
    rfl

theorem InnerExecuteResponse.codec (r : InnerExecuteResponse) : Codec toJson ofJson 3 r where
  strict := by
    have ha : ∀ a ∈ r.artifacts, Strict a.toJson := fun a _ => a.codec.strict
    simpa [toJson, members, Strict, StrictMembers, strictElems_iff] using ha
  inRange := by
    have ha : ∀ a ∈ r.artifacts, InRange a.toJson := fun a _ => a.codec.inRange
    simpa [toJson, members, InRange, InRangeMembers, inRangeElems_iff] using ha
  nesting := by
    have ha : ∀ a ∈ r.artifacts, nesting a.toJson ≤ 1 := fun a _ => a.codec.nesting
    have hn : nestingElems (r.artifacts.map ArtifactDescriptor.toJson) ≤ 1 :=
      nestingElems_le_iff.mpr (by simpa using ha)
    simp [toJson, members, nesting, nestingMembers]
    omega
  read := by
    obtain ⟨ms, hf, hl⟩ := fields_canonical names r.members (by simp [members])
      (by simp [members, names])
    refine reads hf ?_
    refine reads (required_str hl (k := "protocol") rfl) ?_
    refine reads (required_variant hl (k := "type") rfl r.messageType.lookup_name) ?_
    refine reads (required_str hl (k := "request_id") rfl) ?_
    refine reads (required_u64 hl (k := "sequence") rfl) ?_
    refine reads (required_variant hl (k := "status") rfl r.status.lookup_name) ?_
    refine reads (optional_i32 hl (k := "exit_code") rfl) ?_
    refine reads (required_str hl (k := "stdout") rfl) ?_
    refine reads (required_str hl (k := "stderr") rfl) ?_
    refine reads (required_canonical hl (k := "artifacts") rfl
      (asList_canonical fun a _ => a.codec.read)) ?_
    refine reads (required_u64 hl (k := "duration_ms") rfl) ?_
    rfl

end Protocol
end EgoBridge
