import EgoBridge.Lib.Run
import EgoBridge.Protocol.Lease

/-!
# Protocol.LeaseRun

Runs of one lease under its owner's calls, and what admission promises over them.

A run keeps the log of the calls made, newest first, with each call's outcome. What admission
promises is stated about that log: `renewedAt` is the time of the last successful renewal (or of
the creation), `sinceRenewal` the calls made after it.

* `LeaseInv`         — links the cached health and deadlines to the log.
* `inv_reachable`    — the link holds in every reachable state.
* `admission_sound`  — what an `allowed` answer says about the log.
-/

namespace EgoBridge
namespace Protocol

open Run

/-- A call made on a lease, with its outcome. -/
inductive LeaseEvent where
  | renewed (now : UInt64)
  | renewRefused (now : UInt64)
  | failed (now : UInt64)
  | observed (now : UInt64)
  | revoked
  deriving DecidableEq, Repr

def LeaseEvent.isRenewed : LeaseEvent → Bool
  | .renewed _ => true
  | _ => false

def LeaseEvent.isFailed : LeaseEvent → Bool
  | .failed _ => true
  | _ => false

/-- The calls made since the last successful renewal. -/
def sinceRenewal (log : List LeaseEvent) : List LeaseEvent := log.takeWhile (!·.isRenewed)

/-- The time of the last successful renewal, or `t0` when there was none. -/
def renewedAt (t0 : UInt64) : List LeaseEvent → UInt64
  | [] => t0
  | .renewed now :: _ => now
  | _ :: log => renewedAt t0 log

structure LeaseRun where
  lease : LeaseState
  clock : UInt64
  log : List LeaseEvent

namespace LeaseRun

def start (generation t0 : UInt64) (p : LeasePolicy) : LeaseRun :=
  ⟨LeaseState.new generation t0 p, t0, []⟩

def renew (r : LeaseRun) (p : LeasePolicy) (expectedGeneration now : UInt64) : LeaseRun :=
  match r.lease.renew expectedGeneration now p with
  | (lease, .renewed _) => ⟨lease, now, .renewed now :: r.log⟩
  | (lease, _) => ⟨lease, now, .renewRefused now :: r.log⟩

def renewalFailed (r : LeaseRun) (p : LeasePolicy) (now : UInt64) : LeaseRun :=
  ⟨r.lease.renewalFailed now p, now, .failed now :: r.log⟩

def observe (r : LeaseRun) (now : UInt64) : LeaseRun :=
  ⟨(r.lease.observe now).1, now, .observed now :: r.log⟩

def revoke (r : LeaseRun) : LeaseRun := ⟨r.lease.revoke, r.clock, .revoked :: r.log⟩

end LeaseRun

/-- A call and its arguments. -/
inductive LeaseCall where
  | renew (expectedGeneration now : UInt64)
  | renewalFailed (now : UInt64)
  | observe (now : UInt64)
  | revoke

/-- The call is made at or after `clock`. -/
def LeaseCall.notBefore (clock : UInt64) : LeaseCall → Prop
  | .renew _ now => clock ≤ now
  | .renewalFailed now => clock ≤ now
  | .observe now => clock ≤ now
  | .revoke => True

def LeaseRun.call (p : LeasePolicy) (r : LeaseRun) : LeaseCall → LeaseRun
  | .renew expectedGeneration now => r.renew p expectedGeneration now
  | .renewalFailed now => r.renewalFailed p now
  | .observe now => r.observe now
  | .revoke => r.revoke

/-- All runs of a lease created at `t0`, with nondecreasing times. -/
def leaseSystem (p : LeasePolicy) (generation t0 : UInt64) : System LeaseCall LeaseRun where
  init := fun r => r = .start generation t0 p
  step := fun r c r' => c.notBefore r.clock ∧ r' = r.call p c

/-! ## What one operation does -/

/-- A renewal is refused without touching either deadline, or succeeds before the absolute TTL. -/
theorem renew_cases (s : LeaseState) (expectedGeneration now : UInt64) (p : LeasePolicy) :
    (∃ o h, s.renew expectedGeneration now p = ({ s with health := h }, o) ∧
      (∀ u, o ≠ .renewed u) ∧ (h = s.health ∨ h = .expired)) ∨
    (s.revoked = false ∧ now < s.absoluteTtlUntil ∧
      s.renew expectedGeneration now p =
        ({ s with leaseUntil := min (satAdd now p.leaseSeconds) s.absoluteTtlUntil,
                  health := .healthy, graceUntil := none },
          .renewed (min (satAdd now p.leaseSeconds) s.absoluteTtlUntil))) := by
  unfold LeaseState.renew
  split
  · exact .inl ⟨.rejected, s.health, rfl, nofun, .inl rfl⟩
  · rename_i hrev
    split
    · exact .inl ⟨.expired, .expired, rfl, nofun, .inr rfl⟩
    · rename_i hnow
      simp only
      split
      · exact .inl ⟨.expired, .expired, rfl, nofun, .inr rfl⟩
      · refine .inr ⟨by simpa using fun h => hrev (.inl h), ?_, rfl⟩
        exact UInt64.not_le.mp hnow

/-- An observation only ever moves the health to `expired`. -/
theorem observe_cases (s : LeaseState) (now : UInt64) :
    s.observe now = (s, s.health) ∨ s.observe now = ({ s with health := .expired }, .expired) := by
  unfold LeaseState.observe
  split
  · exact .inr rfl
  · split
    · exact .inr rfl
    · exact .inl rfl

/-- A failed renewal never leaves the lease healthy and touches no deadline but the grace. -/
theorem renewalFailed_spec (s : LeaseState) (now : UInt64) (p : LeasePolicy) :
    (s.renewalFailed now p).health ≠ .healthy ∧
      (s.renewalFailed now p).leaseUntil = s.leaseUntil ∧
      (s.renewalFailed now p).absoluteTtlUntil = s.absoluteTtlUntil ∧
      (s.renewalFailed now p).revoked = s.revoked := by
  unfold LeaseState.renewalFailed
  split <;> simp

/-! ## The invariant -/

/-- The cached health and deadlines agree with the log. -/
structure LeaseInv (p : LeasePolicy) (t0 : UInt64) (r : LeaseRun) : Prop where
  ttl : r.lease.absoluteTtlUntil = satAdd t0 p.absoluteTtlSeconds
  lease_le_ttl : r.lease.leaseUntil ≤ r.lease.absoluteTtlUntil
  lease_le_renewal : r.lease.leaseUntil ≤ satAdd (renewedAt t0 r.log) p.leaseSeconds
  revoked_logged : .revoked ∈ r.log → r.lease.revoked = true
  healthy_since : r.lease.health = .healthy → ∀ e ∈ sinceRenewal r.log, e.isFailed = false

theorem sinceRenewal_cons {e : LeaseEvent} (h : e.isRenewed = false) (log : List LeaseEvent) :
    sinceRenewal (e :: log) = e :: sinceRenewal log := by
  simp [sinceRenewal, h]

/-- A call that is no renewal adds one event and keeps the reference time. -/
theorem LeaseInv.quiet {p : LeasePolicy} {t0 now : UInt64} {r : LeaseRun} (hi : LeaseInv p t0 r)
    {e : LeaseEvent} (he : e.isRenewed = false) (hrev : e ≠ .revoked) {s : LeaseState}
    (hl : s.leaseUntil = r.lease.leaseUntil) (ht : s.absoluteTtlUntil = r.lease.absoluteTtlUntil)
    (hr : s.revoked = r.lease.revoked)
    (hh : s.health = .healthy → r.lease.health = .healthy ∧ e.isFailed = false) :
    LeaseInv p t0 ⟨s, now, e :: r.log⟩ where
  ttl := ht.trans hi.ttl
  lease_le_ttl := by rw [hl, ht]; exact hi.lease_le_ttl
  lease_le_renewal := by
    have hr : renewedAt t0 (e :: r.log) = renewedAt t0 r.log := by
      cases e with
      | renewed _ => cases he
      | _ => rfl
    simp only [hl, hr]; exact hi.lease_le_renewal
  revoked_logged := by
    intro hm
    rcases List.mem_cons.mp hm with h | h
    · exact absurd h.symm hrev
    · exact hr.trans (hi.revoked_logged h)
  healthy_since := by
    intro hs x hx
    rw [sinceRenewal_cons he] at hx
    rcases List.mem_cons.mp hx with rfl | hx
    · exact (hh hs).2
    · exact hi.healthy_since (hh hs).1 x hx

theorem inv_start {p : LeasePolicy} (hp : p.leaseSeconds ≤ p.absoluteTtlSeconds)
    (generation t0 : UInt64) : LeaseInv p t0 (.start generation t0 p) where
  ttl := rfl
  lease_le_ttl := satAdd_mono_right hp
  lease_le_renewal := UInt64.le_refl _
  revoked_logged := nofun
  healthy_since := nofun

theorem inv_renew {p : LeasePolicy} {t0 : UInt64} {r : LeaseRun} (hi : LeaseInv p t0 r)
    (expectedGeneration now : UInt64) : LeaseInv p t0 (r.renew p expectedGeneration now) := by
  rcases renew_cases r.lease expectedGeneration now p with ⟨o, h, he, ho, hh⟩ | ⟨hrev, hnow, he⟩
  · -- refused: the log gains an event, the deadlines stay
    have hlog : r.renew p expectedGeneration now
        = ⟨{ r.lease with health := h }, now, .renewRefused now :: r.log⟩ := by
      simp only [LeaseRun.renew, he]
    rw [hlog]
    refine hi.quiet (e := .renewRefused now) rfl nofun rfl rfl rfl fun hs => ⟨?_, rfl⟩
    rcases hh with h' | h'
    · exact h' ▸ hs
    · rw [h'] at hs; cases hs
  · have hlog : r.renew p expectedGeneration now
        = ⟨{ r.lease with leaseUntil := min (satAdd now p.leaseSeconds) r.lease.absoluteTtlUntil,
                          health := .healthy, graceUntil := none }, now, .renewed now :: r.log⟩ := by
      simp only [LeaseRun.renew, he]
    rw [hlog]
    exact
      { ttl := hi.ttl
        lease_le_ttl := by simp only [UInt64.le_iff_toNat_le, min_toNat]; omega
        lease_le_renewal := by simp only [UInt64.le_iff_toNat_le, min_toNat, renewedAt]; omega
        revoked_logged := fun hm => hi.revoked_logged (by simpa using hm)
        healthy_since := fun _ x hx => by simp [sinceRenewal, LeaseEvent.isRenewed] at hx }

theorem inv_call {p : LeasePolicy} {t0 : UInt64} {r : LeaseRun} (hi : LeaseInv p t0 r)
    (c : LeaseCall) : LeaseInv p t0 (r.call p c) := by
  cases c with
  | renew expectedGeneration now => exact inv_renew hi expectedGeneration now
  | renewalFailed now =>
    obtain ⟨hh, hl, ht, hr⟩ := renewalFailed_spec r.lease now p
    exact hi.quiet (e := .failed now) rfl nofun hl ht hr fun hs => absurd hs hh
  | observe now =>
    have he := observe_cases r.lease now
    refine hi.quiet (e := .observed now) rfl nofun ?_ ?_ ?_ fun hs => ⟨?_, rfl⟩
    · rcases he with he | he <;> rw [he]
    · rcases he with he | he <;> rw [he]
    · rcases he with he | he <;> rw [he]
    · rcases he with he | he <;> rw [he] at hs
      · exact hs
      · cases hs
  | revoke =>
    exact
      { ttl := hi.ttl
        lease_le_ttl := hi.lease_le_ttl
        lease_le_renewal := hi.lease_le_renewal
        revoked_logged := fun _ => rfl
        healthy_since := fun hs => by cases hs }

theorem inv_reachable {p : LeasePolicy} (hp : p.leaseSeconds ≤ p.absoluteTtlSeconds)
    {generation t0 : UInt64} {r : LeaseRun} (h : (leaseSystem p generation t0).Reachable r) :
    LeaseInv p t0 r := by
  refine System.invariant (S := leaseSystem p generation t0) (I := LeaseInv p t0) ?_ ?_ h
  · rintro _ rfl
    exact inv_start hp generation t0
  · rintro r c _ hi ⟨_, rfl⟩
    exact inv_call hi c

/-! ## Admission -/

/-- What an `allowed` answer reads off the lease. -/
theorem admit_allowed {s : LeaseState} {now : UInt64} {p : LeasePolicy}
    (h : s.admitAt now p = .allowed) :
    s.revoked = false ∧ s.health = .healthy ∧
      now.toNat + p.admissionMinRemainingSeconds.toNat ≤ s.leaseUntil.toNat := by
  unfold LeaseState.admitAt at h
  split at h
  · cases h
  · rename_i hrev
    split at h
    · cases h
    · rename_i hexp
      split at h
      · cases h
      · rename_i hh
        split at h
        · cases h
        · rename_i hrem
          simp only [not_or, UInt64.le_iff_toNat_le] at hexp
          simp only [UInt64.lt_iff_toNat_lt, satSub_toNat] at hrem
          exact ⟨by simpa using hrev, not_not.mp hh, by omega⟩

/-- **Admission over whole runs.** The deadlines stay ordered and the absolute TTL fixed. An
`allowed` answer says that the lease was never revoked, that no renewal failed since the last
successful one, and that the whole admission margin lies before both deadlines. -/
theorem admission_sound (p : LeasePolicy) (hp : p.leaseSeconds ≤ p.absoluteTtlSeconds)
    (generation t0 : UInt64) {r : LeaseRun} (h : (leaseSystem p generation t0).Reachable r) :
    r.lease.leaseUntil ≤ r.lease.absoluteTtlUntil ∧
    r.lease.absoluteTtlUntil = (LeaseState.new generation t0 p).absoluteTtlUntil ∧
    ∀ now, r.clock ≤ now → r.lease.admitAt now p = .allowed →
      .revoked ∉ r.log ∧ (∀ e ∈ sinceRenewal r.log, e.isFailed = false) ∧
      now.toNat + p.admissionMinRemainingSeconds.toNat ≤
        min ((renewedAt t0 r.log).toNat + p.leaseSeconds.toNat)
          (t0.toNat + p.absoluteTtlSeconds.toNat) := by
  have hi := inv_reachable hp h
  refine ⟨hi.lease_le_ttl, hi.ttl, fun now _ ha => ?_⟩
  obtain ⟨hrev, hh, hrem⟩ := admit_allowed ha
  refine ⟨fun hm => ?_, hi.healthy_since hh, ?_⟩
  · rw [hi.revoked_logged hm] at hrev; cases hrev
  · have h1 := hi.lease_le_renewal
    have h2 := hi.lease_le_ttl
    rw [hi.ttl] at h2
    simp only [UInt64.le_iff_toNat_le, satAdd_toNat] at h1 h2
    omega

/-- A lease renewed at 30 and asked at 40, under the default policy. -/
theorem admission_sound_renewed :
    ((LeaseRun.start 1 0 .default).renew .default 1 30).lease.admitAt 40 .default = .allowed ∧
      40 + 20 ≤ min (30 + 60) 28800 := by
  have h0 : (leaseSystem .default 1 0).Reachable (.start 1 0 .default) := .start rfl
  have hr : (leaseSystem .default 1 0).Reachable
      ((LeaseRun.start 1 0 .default).renew .default 1 30) :=
    h0.next (.renew 1 30) ⟨(by decide : (0 : UInt64) ≤ 30), rfl⟩
  have ha : ((LeaseRun.start 1 0 .default).renew .default 1 30).lease.admitAt 40 .default =
      .allowed := by
    decide
  exact ⟨ha, ((admission_sound .default (by decide) 1 0 hr).2.2 40 (by decide) ha).2.2⟩

end Protocol
end EgoBridge
