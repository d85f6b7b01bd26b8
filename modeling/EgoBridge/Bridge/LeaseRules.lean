import EgoBridge.Bridge.Supervisor
import EgoBridge.Lib.Run

/-!
# Bridge.LeaseRules

What the supervisor's operations keep true of its lease.

* `LeaseOk`      — the relation between the revoked flag, the health and the grace deadline.
* `RevokedStays` — a revoked lease refuses updates, and only an activation ends it.
* `lease_rules`  — both hold along every run whose updates spare a revoked lease and begin no
  grace, and no other update keeps them.
-/

namespace EgoBridge
namespace Bridge

open Protocol Run

/-- An operation on the supervisor's lease, with its arguments and its clock reading. -/
inductive LeaseOp where
  | update (generation leaseUntil absoluteTtlUntil : UInt64) (healthy : Bool)
  | markFailed (failureGraceSeconds now : UInt64)
  | revoke
  | resume (now : UInt64)
  | activate (generation now : UInt64)

def Supervisor.leaseOp (s : Supervisor) : LeaseOp → Supervisor × Except BridgeError Unit
  | .update generation leaseUntil absoluteTtlUntil healthy =>
    s.updateLease generation leaseUntil absoluteTtlUntil healthy
  | .markFailed failureGraceSeconds now => s.markRenewalFailed failureGraceSeconds now
  | .revoke => (s.revoke, .ok ())
  | .resume now => s.resumeAfterReconnect now
  | .activate generation now => s.activateGeneration generation now

def leaseOpSystem : System LeaseOp Supervisor where
  init := fun s => ∃ config highest now, Supervisor.new config highest now = .ok s
  step := fun s op s' => s' = (s.leaseOp op).1

structure LeaseOk (l : LeaseState) : Prop where
  revoked : l.revoked = true → l.health = .expired ∧ l.graceUntil = none
  grace : l.health = .renewalGrace ↔ l.graceUntil.isSome = true
  healthy : l.health = .healthy → l.revoked = false

def LeaseOp.isActivate : LeaseOp → Bool
  | .activate _ _ => true
  | _ => false

def RevokedStays (s : Supervisor) (op : LeaseOp) : Prop :=
  s.lease.revoked = true →
    (∀ generation leaseUntil absoluteTtlUntil healthy,
      op = .update generation leaseUntil absoluteTtlUntil healthy →
        (∃ e, (s.leaseOp op).2 = .error e) ∧ (s.leaseOp op).1.lease = s.lease) ∧
    (op.isActivate = false → (s.leaseOp op).1.lease.revoked = true)

/-- An update is refused on its metadata or its generation, or finds the lease unrevoked and
either reports it healthy or finds it in its grace already. -/
def updatesSafely (s : Supervisor) : LeaseOp → Prop
  | .update generation leaseUntil absoluteTtlUntil healthy =>
    s.updateRejected generation leaseUntil absoluteTtlUntil ∨
      (s.lease.revoked = false ∧ (healthy = true ∨ s.lease.health = .renewalGrace))
  | _ => True

theorem LeaseOk.new (generation now : UInt64) (p : LeasePolicy) :
    LeaseOk (LeaseState.new generation now p) := by
  constructor <;> simp [LeaseState.new]

theorem LeaseOk.revoke (l : LeaseState) : LeaseOk l.revoke := by
  constructor <;> simp [LeaseState.revoke]

theorem LeaseOk.start {s : Supervisor} (h : leaseOpSystem.init s) : LeaseOk s.lease := by
  obtain ⟨config, highest, now, h⟩ := h
  obtain ⟨scheduler, rfl⟩ := Supervisor.new_ok h
  exact LeaseOk.new _ _ _

theorem LeaseOk.markRenewalFailed {s : Supervisor} (h : LeaseOk s.lease) (grace now : UInt64) :
    LeaseOk (s.markRenewalFailed grace now).1.lease := by
  rcases s.markRenewalFailed_cases grace now with
    ⟨_, e, he⟩ | ⟨_, _, _, he, _⟩ | ⟨_, hr, _, _, _, he⟩ | ⟨_, _, _, _, _, he⟩
  · rw [he]; exact h
  · rw [he]; exact .revoke s.lease
  · rw [he]; constructor <;> simp [hr]
  · rw [he]; exact h

theorem LeaseOk.activateGeneration {s : Supervisor} (h : LeaseOk s.lease)
    (generation now : UInt64) : LeaseOk (s.activateGeneration generation now).1.lease := by
  rcases s.activateGeneration_cases generation now with ⟨e, he⟩ | ⟨_, he⟩
  · rw [he]; exact h
  · rw [he]; exact .new generation now .default

theorem LeaseOk.updateLease {s : Supervisor} (h : LeaseOk s.lease)
    {generation leaseUntil absoluteTtlUntil : UInt64} {healthy : Bool}
    (hok : updatesSafely s (.update generation leaseUntil absoluteTtlUntil healthy)) :
    LeaseOk (s.updateLease generation leaseUntil absoluteTtlUntil healthy).1.lease := by
  by_cases hrej : s.updateRejected generation leaseUntil absoluteTtlUntil
  · obtain ⟨e, he⟩ := Supervisor.updateLease_rejected hrej healthy
    rw [he]
    exact h
  · rw [Supervisor.updateLease_accepted hrej healthy]
    obtain ⟨hr, hh⟩ := hok.resolve_left hrej
    cases healthy with
    | true => constructor <;> simp [hr]
    | false =>
      have hg := h.grace.mp (hh.resolve_left (by simp))
      constructor <;> simp [hr, hg]

theorem LeaseOk.leaseOp {s : Supervisor} (h : LeaseOk s.lease) {op : LeaseOp}
    (hok : updatesSafely s op) : LeaseOk (s.leaseOp op).1.lease := by
  cases op with
  | update generation leaseUntil absoluteTtlUntil healthy => exact h.updateLease hok
  | markFailed grace now => exact h.markRenewalFailed grace now
  | revoke => exact .revoke s.lease
  | resume now => simpa [Supervisor.leaseOp] using h
  | activate generation now => exact h.activateGeneration generation now

theorem RevokedStays.of_safe {s : Supervisor} {op : LeaseOp} (hok : updatesSafely s op) :
    RevokedStays s op := by
  intro hrev
  cases op with
  | update generation leaseUntil absoluteTtlUntil healthy =>
    have hrej := hok.resolve_right (by simp [hrev])
    obtain ⟨e, he⟩ := Supervisor.updateLease_rejected hrej healthy
    have he' : s.leaseOp (.update generation leaseUntil absoluteTtlUntil healthy) = (s, .error e) :=
      he
    rw [he']
    exact ⟨fun _ _ _ _ _ => ⟨⟨e, rfl⟩, rfl⟩, fun _ => hrev⟩
  | markFailed grace now =>
    refine ⟨nofun, fun _ => ?_⟩
    rcases s.markRenewalFailed_cases grace now with
      ⟨_, e, he⟩ | ⟨_, hr, _⟩ | ⟨_, hr, _⟩ | ⟨_, hr, _⟩
    · rw [Supervisor.leaseOp, he]; exact hrev
    · rw [hrev] at hr; cases hr
    · rw [hrev] at hr; cases hr
    · rw [hrev] at hr; cases hr
  | revoke => exact ⟨nofun, fun _ => rfl⟩
  | resume now => exact ⟨nofun, fun _ => by simpa [Supervisor.leaseOp] using hrev⟩
  | activate generation now => exact ⟨nofun, nofun⟩

/-- Any other update leaves the revoked state, or a grace that has no end. -/
theorem updatesSafely_of_ok {s : Supervisor} (h : LeaseOk s.lease) {op : LeaseOp}
    (hok : LeaseOk (s.leaseOp op).1.lease) (hst : RevokedStays s op) : updatesSafely s op := by
  cases op with
  | update generation leaseUntil absoluteTtlUntil healthy =>
    by_cases hrej : s.updateRejected generation leaseUntil absoluteTtlUntil
    · exact .inl hrej
    · have he : s.leaseOp (.update generation leaseUntil absoluteTtlUntil healthy) = _ :=
        Supervisor.updateLease_accepted hrej healthy
      right
      constructor
      · cases hr : s.lease.revoked with
        | false => rfl
        | true =>
          obtain ⟨⟨e, herr⟩, _⟩ := (hst hr).1 _ _ _ _ rfl
          rw [he] at herr
          cases herr
      · cases healthy with
        | true => exact .inl rfl
        | false =>
          right
          have hg := hok.grace
          rw [he] at hg
          exact h.grace.mpr (hg.mp (by simp))
  | _ => trivial

/-- **The supervisor's lease over whole runs.** -/
theorem lease_rules {s : Supervisor} (h : (leaseOpSystem.restrict updatesSafely).Reachable s) :
    LeaseOk s.lease ∧
    ∀ op, updatesSafely s op ↔ LeaseOk (s.leaseOp op).1.lease ∧ RevokedStays s op := by
  have hi : LeaseOk s.lease := by
    refine System.invariant (S := leaseOpSystem.restrict updatesSafely)
      (I := fun s => LeaseOk s.lease) (fun _ h0 => .start h0) ?_ h
    rintro s op _ hi ⟨rfl, hok⟩
    exact hi.leaseOp hok
  exact ⟨hi, fun op => ⟨fun hok => ⟨hi.leaseOp hok, .of_safe hok⟩,
    fun hk => updatesSafely_of_ok hi hk.1 hk.2⟩⟩

theorem fresh_init : leaseOpSystem.init (.fresh .development ⟨4, 0, false, []⟩ 0 0) := by
  refine ⟨.development, 0, 0, ?_⟩
  rw [Supervisor.new, if_neg (by decide)]
  rfl

/-- A revoked lease refuses an update for a generation it does not have. -/
theorem lease_rules_revoked :
    LeaseOk (Supervisor.fresh .development ⟨4, 0, false, []⟩ 0 0).revoke.lease ∧
      updatesSafely (Supervisor.fresh .development ⟨4, 0, false, []⟩ 0 0).revoke
        (.update 2 60 60 true) := by
  have h0 := System.Reachable.start (S := leaseOpSystem.restrict updatesSafely) fresh_init
  have h := lease_rules (h0.next .revoke ⟨rfl, trivial⟩)
  exact ⟨h.1, (h.2 _).mpr ⟨h.1.leaseOp (.inl (by decide)), .of_safe (.inl (by decide))⟩⟩

/-- An update right after a revocation makes the lease healthy while it is still revoked, and an
unhealthy update begins a grace without a deadline. -/
theorem update_lease_unguarded :
    (∃ s, leaseOpSystem.Reachable s ∧ s.lease.revoked = true ∧
      (s.leaseOp (.update 1 60 28800 true)).2 = .ok () ∧
      (s.leaseOp (.update 1 60 28800 true)).1.lease.revoked = true ∧
      (s.leaseOp (.update 1 60 28800 true)).1.lease.health = .healthy) ∧
    (∃ s, leaseOpSystem.Reachable s ∧ s.lease.health = .renewalGrace ∧
      s.lease.graceUntil = none) := by
  have h0 := System.Reachable.start (S := leaseOpSystem) fresh_init
  have h1 := h0.next .revoke rfl
  have h2 := h0.next (.update 1 60 28800 false) rfl
  refine ⟨⟨_, h1, ?_⟩, ⟨_, h2, ?_⟩⟩
  · exact ⟨rfl, rfl, rfl, rfl⟩
  · exact ⟨rfl, rfl⟩

end Bridge
end EgoBridge
