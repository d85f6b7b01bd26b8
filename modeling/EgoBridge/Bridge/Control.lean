import Mathlib.Data.List.Sort
import EgoBridge.Bridge.Supervisor
import EgoBridge.Device.Client

/-!
# Bridge.Control

The control plane's answer to an activation or a renewal, checked against the configuration and
read into a lease snapshot; and the classification of its errors.

Timestamps are RFC 3339 texts. Their reader, `parseTimestamp`, is a library's and a parameter.

* `parseConnectedResponse_ok` — a snapshot is one `update_lease` accepts.
-/

namespace EgoBridge
namespace Bridge

open Protocol Device

structure DeviceIdentity where
  deviceId : String
  encryptionPublicKeyB64 : String

structure LeaseSnapshot where
  generation : UInt64
  leaseUntil : UInt64
  absoluteTtlUntil : UInt64
  renewIntervalSeconds : UInt64
  renewFailureGraceSeconds : UInt64

abbrev Members := List (String × Json)

def asObject : Json → Option Members
  | .obj ms => some ms
  | _ => none

def requiredString (object : Members) (field : String) : Except BridgeError String :=
  match ((object.lookup field).bind asStr).filter
      (fun value => !value.isEmpty && (utf8 value).length ≤ 4096) with
  | some value => .ok value
  | none => .error (.protocolMessage ("missing or invalid " ++ field))

def requireStringEq (object : Members) (field expected : String) : Except BridgeError Unit := do
  if (← requiredString object field) ≠ expected then
    .error (.protocolMessage ("connected response " ++ field ++ " does not match"))

def requiredU64 (object : Members) (field : String) : Except BridgeError UInt64 :=
  match (object.lookup field).bind (fun v =>
      match v with
      | .num n => n.toNat?.filter (fun k => 0 < k && k < 2 ^ 64)
      | _ => none) with
  | some value => .ok (UInt64.ofNat value)
  | none => .error (.protocolMessage ("missing or invalid " ++ field))

def optionalStringMatches (object : Members) (field : String) (expected : Option String) :
    Except BridgeError Bool :=
  match object.lookup field, expected with
  | none, _ => .error (.protocolMessage ("missing " ++ field))
  | some value, some expected => .ok (asStr value = some expected)
  | some .null, none => .ok true
  | some _, none => .ok false

/-- The array of capability names, without repetition; `result` are those read so far. -/
def readCapabilities (field : String) (result : List String) :
    List Json → Except BridgeError (List String)
  | [] => .ok result
  | value :: values =>
    match (asStr value).filter (fun value => !value.isEmpty && (utf8 value).length ≤ 128) with
    | none => .error (.protocolMessage ("invalid " ++ field))
    | some capability =>
      if capability ∈ result then .error (.protocolMessage ("duplicate " ++ field))
      else readCapabilities field (result ++ [capability]) values

def requiredCapabilities (object : Members) (field : String) : Except BridgeError (List String) :=
  match object.lookup field with
  | some (.arr values) => readCapabilities field [] values
  | _ => .error (.protocolMessage ("missing or invalid " ++ field))

def releaseProfileName : ReleaseProfile → String
  | .logicTest => "logic-test"
  | .developmentLocal => "development-local"
  | .communityLocalTrust => "community-local-trust"
  | .developerId => "developer-id"

def credentialProfileName : CredentialProfile → String
  | .communityFile => "community_file"
  | .keychainAccessGroup => "keychain_access_group"

def readConcurrencyMode (name : String) : Except BridgeError ConcurrencyMode :=
  if name = "task_space_tab" then .ok .taskSpaceTab
  else if name = "task_space" then .ok .taskSpace
  else if name = "binding" then .ok .binding
  else .error (.protocolMessage "connected response concurrency mode is invalid")

def sortTexts (values : List String) : List String := values.insertionSort (fun a b => a ≤ b)

/-- The part of `parse_connected_response` that compares the answer with what is configured. -/
def checkConnected (data : Members) (config : BridgeConfig) (identity : DeviceIdentity) :
    Except BridgeError Unit := do
  let capability := config.capability
  match capability.validate with
  | .error e => .error (.protocolMessage e.message)
  | .ok () => .ok ()
  if (← requiredString data "id") ≠ config.bindingId then
    .error (.protocolMessage "connected response binding does not match bridge configuration")
  requireStringEq data "control_channel" "ego_browser_bridge"
  requireStringEq data "relay_binding_kind" "ego_browser"
  requireStringEq data "authorization_mode" "ego_browser_script_full_trust"
  if (← requiredU64 data "authorization_policy_version") ≠ 1 then
    .error (.protocolMessage "connected response authorization policy is invalid")
  if (← requiredString data "ego_browser_device_id") ≠ identity.deviceId then
    .error (.protocolMessage "connected response device identity mismatch")
  if (← requiredString data "encryption_public_key") ≠ identity.encryptionPublicKeyB64 then
    .error (.protocolMessage "connected response encryption key mismatch")
  requireStringEq data "status" "active"
  requireStringEq data "lease_health" "healthy"
  requireStringEq data "task_space_label" config.defaultTaskSpace
  let matchesAll ← [("bridge_protocol_version", capability.bridgeProtocolVersion),
    ("local_runtime_version", capability.localEgoBrowserRuntimeVersion),
    ("ego_lite_runtime_version", capability.egoLiteRuntimeVersion),
    ("skill_version", capability.skillVersion),
    ("release_profile", releaseProfileName config.releaseProfile),
    ("signer_certificate_sha256", capability.signerCertificateSha256),
    ("credential_profile", credentialProfileName config.credentialProfile),
    ("remote_platform", REMOTE_PLATFORM), ("local_platform", LOCAL_PLATFORM)].allM
      fun p => (requiredString data p.1).map (fun value => decide (value = p.2))
  if ¬ matchesAll then
    .error (.protocolMessage "connected response capability metadata does not match")
  if (← requiredU64 data "allowlist_revision") ≠ config.allowlistRevision then
    .error (.protocolMessage "connected response limits do not match")
  if (← requiredU64 data "max_parallel_requests").toNat ≠ config.maxParallelRequests then
    .error (.protocolMessage "connected response limits do not match")
  if ¬ (← optionalStringMatches data "allowlist_roots_digest" config.allowlistRootsDigest) then
    .error (.protocolMessage "connected response allowlist roots do not match")
  if ¬ (← optionalStringMatches data "learning_bundle_digest" config.learningBundleDigest) then
    .error (.protocolMessage "connected response learning bundle does not match")
  if sortTexts (← requiredCapabilities data "capabilities") ≠ sortTexts capability.capabilities then
    .error (.protocolMessage "connected response capabilities do not match")
  let concurrencyMode ← readConcurrencyMode (← requiredString data "concurrency_mode")
  if concurrencyMode ∉ capability.supportedConcurrency then
    .error (.protocolMessage "connected response concurrency mode is unsupported")

section

variable (parseTimestamp : String → Option UInt64)

def requiredTimestamp (object : Members) (field : String) : Except BridgeError UInt64 := do
  match parseTimestamp (← requiredString object field) with
  | some seconds => .ok seconds
  | none => .error (.protocolMessage "invalid control-plane timestamp")

/-- The part of `parse_connected_response` that reads the lease. -/
def readLease (data : Members) (config : BridgeConfig) (now : UInt64) :
    Except BridgeError LeaseSnapshot := do
  let generation ← requiredU64 data "generation"
  if generation ≠ config.generation then
    .error (.protocolMessage "connected response generation does not match")
  else
    let leaseUntil ← requiredTimestamp parseTimestamp data "lease_until"
    let absoluteTtlUntil ← requiredTimestamp parseTimestamp data "absolute_ttl_until"
    if leaseUntil ≤ now ∨ absoluteTtlUntil < leaseUntil ∨ absoluteTtlUntil ≤ now then
      .error (.protocolMessage "connected response lease metadata is invalid")
    else
      let renewIntervalSeconds ← requiredU64 data "lease_renew_interval_seconds"
      let renewFailureGraceSeconds ← requiredU64 data "lease_renew_failure_grace_seconds"
      .ok ⟨generation, leaseUntil, absoluteTtlUntil, renewIntervalSeconds,
        renewFailureGraceSeconds⟩

def parseConnectedResponse (response : Json) (config : BridgeConfig) (identity : DeviceIdentity)
    (now : UInt64) : Except BridgeError LeaseSnapshot :=
  match (get response "data").bind asObject with
  | none => .error (.protocolMessage "connected response is malformed")
  | some data =>
    match checkConnected data config identity with
    | .error e => .error e
    | .ok () => readLease parseTimestamp data config now

end

def isRetryableControlError : CredentialError → Bool
  | .network => true
  | .api status => isServerError status
  | _ => false

/-! ## What a snapshot satisfies -/

theorem requiredU64_ne_zero {object : Members} {field : String} {n : UInt64}
    (h : requiredU64 object field = .ok n) : n ≠ 0 := by
  unfold requiredU64 at h
  split at h
  · rename_i value hv
    cases h
    obtain ⟨v, _, hv⟩ := Option.bind_eq_some_iff.mp hv
    split at hv
    · rw [Option.filter_eq_some_iff] at hv
      obtain ⟨_, hv⟩ := hv
      simp only [Bool.and_eq_true, decide_eq_true_eq] at hv
      intro h0
      have := congrArg UInt64.toNat h0
      rw [UInt64.toNat_ofNat', Nat.mod_eq_of_lt hv.2] at this
      have h1 := hv.1
      simp only [UInt64.toNat_zero] at this
      omega
    · cases hv
  · cases h

theorem readLease_ok {parseTimestamp : String → Option UInt64} {data : Members}
    {config : BridgeConfig} {now : UInt64} {lease : LeaseSnapshot}
    (h : readLease parseTimestamp data config now = .ok lease) :
    lease.generation = config.generation ∧ lease.generation ≠ 0 ∧ now < lease.leaseUntil ∧
      lease.leaseUntil ≤ lease.absoluteTtlUntil ∧ lease.renewFailureGraceSeconds ≠ 0 := by
  obtain ⟨generation, hg, h⟩ := bind_ok h
  split at h
  · cases h
  · rename_i hgen
    obtain ⟨leaseUntil, _, h⟩ := bind_ok h
    obtain ⟨absoluteTtlUntil, _, h⟩ := bind_ok h
    split at h
    · cases h
    · rename_i htime
      simp only [not_or, UInt64.not_le, UInt64.not_lt] at htime
      obtain ⟨interval, _, h⟩ := bind_ok h
      obtain ⟨grace, hgrace, h⟩ := bind_ok h
      cases h
      exact ⟨not_not.mp hgen, requiredU64_ne_zero hg, htime.1, htime.2.1,
        requiredU64_ne_zero hgrace⟩

theorem parseConnectedResponse_ok {parseTimestamp : String → Option UInt64} {response : Json}
    {config : BridgeConfig} {identity : DeviceIdentity} {now : UInt64} {lease : LeaseSnapshot}
    (h : parseConnectedResponse parseTimestamp response config identity now = .ok lease) :
    lease.generation = config.generation ∧ lease.generation ≠ 0 ∧ now < lease.leaseUntil ∧
      lease.leaseUntil ≤ lease.absoluteTtlUntil ∧ lease.renewFailureGraceSeconds ≠ 0 := by
  unfold parseConnectedResponse at h
  split at h
  · cases h
  · split at h
    · cases h
    · exact readLease_ok h

end Bridge
end EgoBridge
