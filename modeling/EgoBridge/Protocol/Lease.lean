import EgoBridge.Lib.Sat

/-!
# Protocol.Lease

The lease state machine of the protocol crate: `LeaseState` and its five operations, on Unix
seconds as `u64`. Times are parameters, so a run is a sequence of operations with the times at
which they were made.
-/

namespace EgoBridge
namespace Protocol

inductive LeaseHealth where
  | healthy
  | renewalGrace
  | expired
  deriving DecidableEq, Repr

structure LeasePolicy where
  leaseSeconds : UInt64
  failureGraceSeconds : UInt64
  admissionMinRemainingSeconds : UInt64
  absoluteTtlSeconds : UInt64
  deriving DecidableEq, Repr

/-- `LeasePolicy::default`. -/
def LeasePolicy.default : LeasePolicy where
  leaseSeconds := 60
  failureGraceSeconds := 10
  admissionMinRemainingSeconds := 20
  absoluteTtlSeconds := 28800

structure LeaseState where
  generation : UInt64
  activatedAt : UInt64
  leaseUntil : UInt64
  absoluteTtlUntil : UInt64
  health : LeaseHealth
  graceUntil : Option UInt64
  revoked : Bool
  deriving DecidableEq, Repr

inductive Admission where
  | allowed
  | renewalRequired
  | expired
  | bindingRevoked
  deriving DecidableEq, Repr

inductive RenewalOutcome where
  | renewed (until_ : UInt64)
  | rejected
  | expired
  deriving DecidableEq, Repr

namespace LeaseState

def new (generation now : UInt64) (policy : LeasePolicy) : LeaseState where
  generation := generation
  activatedAt := now
  leaseUntil := satAdd now policy.leaseSeconds
  absoluteTtlUntil := satAdd now policy.absoluteTtlSeconds
  health := .healthy
  graceUntil := none
  revoked := false

def admitAt (s : LeaseState) (now : UInt64) (policy : LeasePolicy) : Admission :=
  if s.revoked then .bindingRevoked
  else if s.absoluteTtlUntil ≤ now ∨ s.leaseUntil ≤ now then .expired
  else if s.health ≠ .healthy then .renewalRequired
  else if satSub s.leaseUntil now < policy.admissionMinRemainingSeconds then .renewalRequired
  else .allowed

def renewalFailed (s : LeaseState) (now : UInt64) (policy : LeasePolicy) : LeaseState :=
  if s.revoked ∨ s.absoluteTtlUntil ≤ now then
    { s with health := .expired, graceUntil := none }
  else
    { s with
      health := .renewalGrace
      graceUntil := some (satAdd now policy.failureGraceSeconds) }

def renew (s : LeaseState) (expectedGeneration now : UInt64) (policy : LeasePolicy) :
    LeaseState × RenewalOutcome :=
  if s.revoked ∨ expectedGeneration ≠ s.generation then (s, .rejected)
  else if s.absoluteTtlUntil ≤ now then ({ s with health := .expired }, .expired)
  else
    let candidate := min (satAdd now policy.leaseSeconds) s.absoluteTtlUntil
    if candidate ≤ now then ({ s with health := .expired }, .expired)
    else
      ({ s with leaseUntil := candidate, health := .healthy, graceUntil := none },
        .renewed candidate)

/-- Advance expiry and grace with a clock sample; the new health is the value returned. -/
def observe (s : LeaseState) (now : UInt64) : LeaseState × LeaseHealth :=
  if s.revoked ∨ s.absoluteTtlUntil ≤ now then
    ({ s with health := .expired }, .expired)
  else if (s.health = .renewalGrace ∧ s.graceUntil.any (fun deadline => decide (deadline ≤ now)))
      ∨ (s.health = .healthy ∧ s.leaseUntil ≤ now) then
    ({ s with health := .expired }, .expired)
  else (s, s.health)

def revoke (s : LeaseState) : LeaseState :=
  { s with revoked := true, health := .expired, graceUntil := none }

end LeaseState

end Protocol
end EgoBridge
