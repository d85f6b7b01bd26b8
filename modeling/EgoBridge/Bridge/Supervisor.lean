import Mathlib.Data.Finmap
import EgoBridge.Protocol.Lease
import EgoBridge.Protocol.Scheduler

/-!
# Bridge.Supervisor

The supervisor's state and its control operations.

Every mutex-guarded cell and the cancellation watch channel is a field. The operations are cut
where the source takes and leaves a lock: `revoke` is `revokeLease`, `clearIssued`,
`clearConsumed` and `sendCancel true`, and `resumeAfterReconnect` is `resumeCheck` and
`sendCancel false`, each of them one atomic section. `activateGeneration`, `updateLease` and
`markRenewalFailed` keep the lease lock from their first read to their last write.

A clock reading is an argument. A poisoned mutex is not modelled.
-/

namespace EgoBridge
namespace Bridge

open Protocol

inductive BridgeError where
  | unavailable
  | revoked
  | leaseExpired
  | leaseRenewalRequired
  | replay
  | concurrency
  | protocol (error : ProtocolError)
  | io
  | protocolMessage (message : String)
  deriving DecidableEq, Repr

structure BridgeConfig where
  bindingId : String
  generation : UInt64
  allowlistRevision : UInt64
  allowlistRootsDigest : Option String
  learningBundleDigest : Option String
  capabilities : List String
  releaseProfile : ReleaseProfile
  credentialProfile : CredentialProfile
  signerCertificateSha256 : String
  runtimeVersion : String
  egoLiteVersion : String
  skillVersion : String
  maxParallelRequests : Nat
  defaultTaskSpace : String
  brokerStartupNonce : Option String
  deriving DecidableEq

/-- `from_environment` with none of its variables set. -/
def BridgeConfig.development : BridgeConfig where
  bindingId := ""
  generation := 1
  allowlistRevision := 1
  allowlistRootsDigest := none
  learningBundleDigest := none
  capabilities :=
    ["ego_browser_script_execute_v1", "ego_browser_snapshot_v1",
      "ego_browser_screenshot_artifact_v1", "ego_browser_task_space_v1",
      "ego_browser_concurrency_v1"]
  releaseProfile := .developmentLocal
  credentialProfile := .communityFile
  signerCertificateSha256 := "development"
  runtimeVersion := "0.5.0.32"
  egoLiteVersion := "0.5.0.32"
  skillVersion := "2.0.0"
  maxParallelRequests := 4
  defaultTaskSpace := "agent-remote:development"
  brokerStartupNonce := none

def BridgeConfig.bound : BridgeConfig := { development with bindingId := "b1" }

def BridgeConfig.capability (c : BridgeConfig) : BridgeCapability where
  bridgeProtocolVersion := PROTOCOL_VERSION
  remoteWrapperVersion := "0.1.19"
  localEgoBrowserRuntimeVersion := c.runtimeVersion
  egoLiteRuntimeVersion := c.egoLiteVersion
  skillVersion := c.skillVersion
  releaseProfile := c.releaseProfile
  signerCertificateSha256 := c.signerCertificateSha256
  credentialProfile := c.credentialProfile
  allowlistRevision := c.allowlistRevision
  allowlistRootsDigest := c.allowlistRootsDigest
  learningBundleDigest := c.learningBundleDigest
  maxParallelRequests := c.maxParallelRequests
  maxScriptBytes := MAX_SCRIPT_BYTES
  maxExecuteTimeoutMs := MAX_EXECUTE_TIMEOUT_MS
  supportedConcurrency := [.taskSpaceTab, .taskSpace, .binding]
  capabilities := c.capabilities
  remotePlatform := "linux"
  localPlatform := "macos"

structure IssuedPermit where
  permit : RequestPermit
  key : Key
  deriving DecidableEq

structure RemoteRequestKey where
  bindingId : String
  generation : UInt64
  requestId : String
  sequence : UInt64
  deriving DecidableEq

def RemoteRequestKey.fromEnvelope (e : OuterEnvelope) : RemoteRequestKey :=
  ⟨e.bindingId, e.generation, e.requestId, e.sequence⟩

/-- What the registry keeps of a running request; `cancelled` is its own watch value. -/
structure ActiveRemoteRequest where
  cancelled : Bool
  sessionKey : Key
  deriving DecidableEq

structure Supervisor where
  config : BridgeConfig
  scheduler : Scheduler
  lease : LeaseState
  nextSequence : UInt64
  issuedPermits : Finmap (fun _ : UInt64 => IssuedPermit)
  consumedSequences : Finset UInt64
  highestRemoteSequence : UInt64
  activeRemoteRequests : Finmap (fun _ : RemoteRequestKey => ActiveRemoteRequest)
  cancelled : Bool

namespace Supervisor

/-- A supervisor with a fresh lease and nothing under way. -/
def fresh (config : BridgeConfig) (scheduler : Scheduler) (highestRemoteSequence now : UInt64) :
    Supervisor where
  config := config
  scheduler := scheduler
  lease := LeaseState.new config.generation now .default
  nextSequence := 0
  issuedPermits := ∅
  consumedSequences := ∅
  highestRemoteSequence := highestRemoteSequence
  activeRemoteRequests := ∅
  cancelled := false

/-- `new`, once the work root is prepared and locked and the sequence ledger is read. -/
def new (config : BridgeConfig) (highestRemoteSequence now : UInt64) :
    Except BridgeError Supervisor :=
  if ¬ isDedicatedTaskSpace config.defaultTaskSpace then
    .error (.protocolMessage "invalid default task space")
  else
    match Scheduler.new config.maxParallelRequests with
    | .error _ => .error (.protocolMessage "invalid maximum parallel requests")
    | .ok scheduler => .ok (fresh config scheduler highestRemoteSequence now)

theorem new_ok {config : BridgeConfig} {highest now : UInt64} {s : Supervisor}
    (h : new config highest now = .ok s) : ∃ scheduler, s = fresh config scheduler highest now := by
  unfold new at h
  split at h
  · cases h
  · split at h
    · cases h
    · cases h
      exact ⟨_, rfl⟩

/-! ## Sections -/

def revokeLease (s : Supervisor) : Supervisor := { s with lease := s.lease.revoke }

def clearIssued (s : Supervisor) : Supervisor := { s with issuedPermits := ∅ }

def clearConsumed (s : Supervisor) : Supervisor := { s with consumedSequences := ∅ }

/-- `cancel_tx.send_replace`. -/
def sendCancel (s : Supervisor) (value : Bool) : Supervisor := { s with cancelled := value }

/-- The lease-lock section of `resume_after_reconnect`. -/
def resumeCheck (s : Supervisor) (now : UInt64) : Except BridgeError Unit :=
  match s.lease.admitAt now .default with
  | .allowed => .ok ()
  | .renewalRequired => .ok ()
  | .expired => .error .leaseExpired
  | .bindingRevoked => .error .revoked

/-! ## Operations -/

def clearPermits (s : Supervisor) : Supervisor := s.clearIssued.clearConsumed

/-- Mark the binding revoked and cancel all supervised executions. -/
def revoke (s : Supervisor) : Supervisor := s.revokeLease.clearPermits.sendCancel true

/-- Request cancellation of the current generation's executions. -/
def cancel (s : Supervisor) : Supervisor := s.sendCancel true

/-- Re-enable request admission after a transient relay reconnect. -/
def resumeAfterReconnect (s : Supervisor) (now : UInt64) : Supervisor × Except BridgeError Unit :=
  match s.resumeCheck now with
  | .error e => (s, .error e)
  | .ok () => (s.sendCancel false, .ok ())

/-- Reset the cancellation signal after a new explicitly authorized generation. -/
def activateGeneration (s : Supervisor) (generation now : UInt64) :
    Supervisor × Except BridgeError Unit :=
  if generation = 0 then (s, .error (.protocolMessage "invalid generation"))
  else if generation ≤ s.lease.generation then
    (s, .error (.protocolMessage "generation must increase"))
  else
    (({ s with lease := LeaseState.new generation now .default }).clearPermits.sendCancel false,
      .ok ())

/-- Update the lease snapshot after a control-plane activation or renewal. -/
def updateLease (s : Supervisor) (generation leaseUntil absoluteTtlUntil : UInt64)
    (healthy : Bool) : Supervisor × Except BridgeError Unit :=
  if generation = 0 ∨ leaseUntil = 0 ∨ absoluteTtlUntil < leaseUntil then
    (s, .error (.protocolMessage "invalid lease metadata"))
  else if generation ≠ s.lease.generation then (s, .error .revoked)
  else
    ({ s with
        lease :=
          { s.lease with
            leaseUntil := leaseUntil
            absoluteTtlUntil := absoluteTtlUntil
            health := if healthy then .healthy else .renewalGrace
            graceUntil := if healthy then none else s.lease.graceUntil } }, .ok ())

/-- Mark a failed renewal while preserving the first grace deadline. -/
def markRenewalFailed (s : Supervisor) (failureGraceSeconds now : UInt64) :
    Supervisor × Except BridgeError Unit :=
  if failureGraceSeconds = 0 then
    (s, .error (.protocolMessage "invalid renewal failure grace"))
  else if s.lease.revoked then (s, .error .revoked)
  else if s.lease.absoluteTtlUntil ≤ now then
    (s.revokeLease.sendCancel true, .error .leaseExpired)
  else
    let lease :=
      if s.lease.health ≠ .renewalGrace then
        { s.lease with
          health := .renewalGrace
          graceUntil := some (satAdd now failureGraceSeconds) }
      else s.lease
    if lease.graceUntil.any (fun deadline => decide (deadline ≤ now)) then
      (({ s with lease := lease }).revokeLease.sendCancel true, .error .leaseExpired)
    else ({ s with lease := lease }, .ok ())

/-! ## What one operation does -/

@[simp] theorem sendCancel_lease (s : Supervisor) (b : Bool) : (s.sendCancel b).lease = s.lease :=
  rfl

@[simp] theorem sendCancel_cancelled (s : Supervisor) (b : Bool) :
    (s.sendCancel b).cancelled = b := rfl

@[simp] theorem revokeLease_lease (s : Supervisor) : s.revokeLease.lease = s.lease.revoke := rfl

@[simp] theorem revokeLease_cancelled (s : Supervisor) : s.revokeLease.cancelled = s.cancelled :=
  rfl

@[simp] theorem clearIssued_lease (s : Supervisor) : s.clearIssued.lease = s.lease := rfl

@[simp] theorem clearIssued_cancelled (s : Supervisor) : s.clearIssued.cancelled = s.cancelled :=
  rfl

@[simp] theorem clearConsumed_lease (s : Supervisor) : s.clearConsumed.lease = s.lease := rfl

@[simp] theorem clearConsumed_cancelled (s : Supervisor) :
    s.clearConsumed.cancelled = s.cancelled := rfl

@[simp] theorem clearPermits_lease (s : Supervisor) : s.clearPermits.lease = s.lease := rfl

@[simp] theorem revoke_lease (s : Supervisor) : s.revoke.lease = s.lease.revoke := rfl

theorem resumeCheck_ok {s : Supervisor} {now : UInt64} (h : s.resumeCheck now = .ok ()) :
    s.lease.revoked = false := by
  cases hr : s.lease.revoked with
  | false => rfl
  | true => simp [resumeCheck, LeaseState.admitAt, hr] at h

/-- `resume_after_reconnect` leaves the lease as it is. -/
@[simp] theorem resumeAfterReconnect_lease (s : Supervisor) (now : UInt64) :
    (s.resumeAfterReconnect now).1.lease = s.lease := by
  unfold resumeAfterReconnect
  split <;> rfl

/-- An activation is refused, or starts a fresh lease with the signal lowered. -/
theorem activateGeneration_cases (s : Supervisor) (generation now : UInt64) :
    (∃ e, s.activateGeneration generation now = (s, .error e)) ∨
    (s.lease.generation < generation ∧
      s.activateGeneration generation now =
        (({ s with lease := LeaseState.new generation now .default }).clearPermits.sendCancel false,
          .ok ())) := by
  unfold activateGeneration
  split
  · exact .inl ⟨_, rfl⟩
  · split
    · exact .inl ⟨_, rfl⟩
    · rename_i h
      exact .inr ⟨UInt64.not_le.mp h, rfl⟩

theorem activateGeneration_newer {s : Supervisor} {generation : UInt64}
    (h : s.lease.generation < generation) (now : UInt64) :
    s.activateGeneration generation now =
      (({ s with lease := LeaseState.new generation now .default }).clearPermits.sendCancel false,
        .ok ()) := by
  have h0 : generation ≠ 0 := by
    rintro rfl
    exact absurd h (UInt64.not_lt_zero)
  rw [activateGeneration, if_neg h0, if_neg (UInt64.not_le.mpr h)]

/-- What makes `update_lease` return an error. -/
def updateRejected (s : Supervisor) (generation leaseUntil absoluteTtlUntil : UInt64) : Prop :=
  generation = 0 ∨ leaseUntil = 0 ∨ absoluteTtlUntil < leaseUntil ∨
    generation ≠ s.lease.generation

instance (s : Supervisor) (generation leaseUntil absoluteTtlUntil : UInt64) :
    Decidable (s.updateRejected generation leaseUntil absoluteTtlUntil) :=
  inferInstanceAs (Decidable (_ ∨ _))

theorem updateLease_rejected {s : Supervisor} {generation leaseUntil absoluteTtlUntil : UInt64}
    (h : s.updateRejected generation leaseUntil absoluteTtlUntil) (healthy : Bool) :
    ∃ e, s.updateLease generation leaseUntil absoluteTtlUntil healthy = (s, .error e) := by
  unfold updateLease
  split
  · exact ⟨_, rfl⟩
  · rename_i hm
    rw [if_pos]
    · exact ⟨_, rfl⟩
    · unfold updateRejected at h
      tauto

theorem updateLease_accepted {s : Supervisor} {generation leaseUntil absoluteTtlUntil : UInt64}
    (h : ¬ s.updateRejected generation leaseUntil absoluteTtlUntil) (healthy : Bool) :
    s.updateLease generation leaseUntil absoluteTtlUntil healthy =
      ({ s with
          lease :=
            { s.lease with
              leaseUntil := leaseUntil
              absoluteTtlUntil := absoluteTtlUntil
              health := if healthy then .healthy else .renewalGrace
              graceUntil := if healthy then none else s.lease.graceUntil } }, .ok ()) := by
  unfold updateRejected at h
  unfold updateLease
  rw [if_neg (by tauto), if_neg (by tauto)]

/-- The four ways `mark_renewal_failed` can go. -/
theorem markRenewalFailed_cases (s : Supervisor) (grace now : UInt64) :
    ((grace = 0 ∨ s.lease.revoked = true) ∧ ∃ e, s.markRenewalFailed grace now = (s, .error e)) ∨
    (grace ≠ 0 ∧ s.lease.revoked = false ∧
      (s.lease.absoluteTtlUntil ≤ now ∨
        (s.lease.health ≠ .renewalGrace ∧ satAdd now grace ≤ now) ∨
        (s.lease.health = .renewalGrace ∧ ∃ d, s.lease.graceUntil = some d ∧ d ≤ now)) ∧
      (s.markRenewalFailed grace now).1 = s.revokeLease.sendCancel true ∧
      (s.markRenewalFailed grace now).2 = .error .leaseExpired) ∨
    (grace ≠ 0 ∧ s.lease.revoked = false ∧ now < s.lease.absoluteTtlUntil ∧
      s.lease.health ≠ .renewalGrace ∧ now < satAdd now grace ∧
      s.markRenewalFailed grace now =
        ({ s with lease := { s.lease with
            health := .renewalGrace, graceUntil := some (satAdd now grace) } }, .ok ())) ∨
    (grace ≠ 0 ∧ s.lease.revoked = false ∧ now < s.lease.absoluteTtlUntil ∧
      s.lease.health = .renewalGrace ∧ (∀ d, s.lease.graceUntil = some d → now < d) ∧
      s.markRenewalFailed grace now = (s, .ok ())) := by
  unfold markRenewalFailed
  by_cases hg : grace = 0
  · simp [hg]
  · by_cases hr : s.lease.revoked = true
    · simp [hg, hr]
    · simp only [Bool.not_eq_true] at hr
      by_cases ht : s.lease.absoluteTtlUntil ≤ now
      · simp [hg, hr, ht]
      · by_cases hh : s.lease.health = .renewalGrace
        · cases hd : s.lease.graceUntil with
          | none => simp [hg, hr, ht, hh, hd, UInt64.not_le.mp ht]
          | some d =>
            by_cases hn : d ≤ now
            · simp [hg, hr, ht, hh, hd, hn]
            · simp [hg, hr, ht, hh, hd, hn, UInt64.not_le.mp ht, UInt64.not_le.mp hn]
        · by_cases hn : satAdd now grace ≤ now
          · simp [hg, hr, ht, hh, hn, revokeLease, LeaseState.revoke]
          · simp [hg, hr, ht, hh, hn, UInt64.not_le.mp ht, UInt64.not_le.mp hn]

end Supervisor

end Bridge
end EgoBridge
